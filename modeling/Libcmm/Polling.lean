import Libcmm.Multisockets
import Mathlib.Data.List.Nodup
import Mathlib.Tactic.SplitIfs

/-! # Polling (`cmm_socket_impl.cpp`)

A poll of multisockets is a poll of their pipes, and what the kernel reports of these is mapped back
to the entries of the caller. An entry that asks for both events needs two entries of the kernel's
array; but what comes back is read at the same index in both arrays, so then the caller's is read
beyond its end.
-/

namespace Libcmm

/-- The events of a `struct pollfd`. -/
abbrev PollFlags := BitVec 16

/-- `POLLIN`. -/
def pollIn : PollFlags := 0x1

/-- `POLLOUT`. -/
def pollOut : PollFlags := 0x4

/-- `POLLERR`, `POLLHUP` and `POLLNVAL`, which need not be asked for. -/
def pollAlways : PollFlags := 0x8 ||| 0x10 ||| 0x20

/-- `struct pollfd`. -/
structure Pollfd where
  fd : Int
  events : PollFlags
  revents : PollFlags
  deriving DecidableEq

/-- An entry asks for an event. -/
def Pollfd.asks (entry : Pollfd) (flag : PollFlags) : Bool := entry.events &&& flag ≠ 0

namespace Polling

/-- Why the translation ends early. -/
inductive Stop where
  | trapped
  | notConnected

/-- The entry for a descriptor of a multisocket; an assertion may fire. -/
def realEntry (sk : Multisocket) (entry : Pollfd) (osfd : Int) : Option Pollfd :=
  if osfd = sk.selectPipe then
    if entry.asks pollIn then some { entry with fd := osfd, events := pollIn } else none
  else if osfd = sk.writeReadyPipe then
    if entry.asks pollOut then some { entry with fd := osfd, events := pollIn } else none
  else some { entry with fd := osfd }

/-- The entries of the kernel's array for one of the caller's. -/
def realEntries (hash : SockHash) (entry : Pollfd) : Except Stop (List Pollfd) :=
  match hash.table entry.fd with
  | none => .ok [entry]
  | some sk =>
      let readers :=
        if entry.asks pollIn then sk.getFdsForSelect entry.fd true false else some []
      let writers :=
        if entry.asks pollOut then sk.getFdsForSelect entry.fd false true else some []
      match readers.bind fun first => writers.map (first ++ ·) with
      | none => .error .trapped
      | some [] => .error .notConnected
      | some osfdList =>
          match osfdList.mapM fun pair => realEntry sk entry pair.2 with
          | none => .error .trapped
          | some entries => .ok entries

/-- The first loop of `mc_poll`: the kernel's array, with the index in the caller's that each entry
is for. -/
def realFds (hash : SockHash) : List Pollfd → Nat → Except Stop (List (Pollfd × Nat))
  | [], _ => .ok []
  | entry :: rest, i =>
      (realEntries hash entry).bind fun here =>
        (realFds hash rest (i + 1)).map fun later => here.map (·, i) ++ later

/-- `osfds_to_pollfds`; a later assignment replaces an earlier one. -/
def osfdsToPollfds (real : List (Pollfd × Nat)) (osfd : Int) : Option Nat :=
  (real.reverse.find? fun assigned => assigned.1.fd = osfd).map Prod.snd

/-- What the last loop changes. -/
structure State where
  fds : List Pollfd
  rc : Int
  origFds : List Int

/-- The correction of the return value for duplicates. -/
def State.correct (state : State) (fd : Int) (revents : PollFlags) : State :=
  if revents &&& (pollIn ||| pollOut) = 0 then state
  else if fd ∈ state.origFds then { state with rc := state.rc - 1 }
  else { state with origFds := fd :: state.origFds }

/-- The events of the caller's entry `origfd`, from those of the kernel's for `osfd`. Whether these
are renamed is decided by the descriptor of the entry that is read at the index. -/
def eventsBack (hash : SockHash) (here origfd : Pollfd) (osfd : Int) (revents : PollFlags) :
    PollFlags :=
  match hash.table here.fd with
  | none => revents
  | some sk =>
      origfd.revents ||| if osfd = sk.writeReadyPipe ∧ revents &&& pollIn ≠ 0 then pollOut
        else revents

/-- The last loop of `mc_poll`, from an index on. It traps where the caller's array is read beyond
its end. -/
def mapBack (hash : SockHash) (real : List (Pollfd × Nat)) (reported : Int → PollFlags) :
    List (Pollfd × Nat) → Nat → State → Option State
  | [], _, state => some state
  | realfd :: rest, i, state =>
      (osfdsToPollfds real realfd.1.fd).bind fun orig =>
      (state.fds[orig]?).bind fun origfd =>
      (state.fds[i]?).bind fun here =>
        let revents := eventsBack hash here origfd realfd.1.fd (reported realfd.1.fd)
        mapBack hash real reported rest (i + 1)
          ({ state with fds := state.fds.set orig { origfd with revents } }.correct origfd.fd
            revents)

/-- What a call comes to. -/
inductive Outcome where
  | trapped
  | returned (rc : Int) (fds : List Pollfd)

/-- `CMMSocketImpl::mc_poll`, with what `poll` returns and what it reports of each descriptor. -/
def mcPoll (hash : SockHash) (fds : List Pollfd) (rc : Int) (reported : Int → PollFlags) :
    Outcome :=
  let fds := fds.map fun entry => { entry with revents := 0 }
  match realFds hash fds 0 with
  | .error .trapped => .trapped
  | .error .notConnected => .returned (-1) fds
  | .ok real =>
      if rc ≤ 0 then .returned rc fds
      else match mapBack hash real reported real 0 ⟨fds, rc, []⟩ with
        | none => .trapped
        | some state => .returned state.rc state.fds

/-- What `poll` may report of an array: a failure, or the number of entries with events, which are
events that were asked for or need not be. -/
structure Reports (real : List Pollfd) (rc : Int) (reported : Int → PollFlags) : Prop where
  failed : rc < 0 → ∀ fd, reported fd = 0
  count : 0 ≤ rc → rc = real.countP fun entry => reported entry.fd ≠ 0
  within : ∀ entry ∈ real, reported entry.fd &&& ~~~(entry.events ||| pollAlways) = 0
  others : ∀ fd, (∀ entry ∈ real, entry.fd ≠ fd) → reported fd = 0

/-- Of a multisocket an entry asks for one event at least. -/
def AsksSome (hash : SockHash) (entry : Pollfd) : Prop :=
  (hash.table entry.fd).isSome → entry.asks pollIn = true ∨ entry.asks pollOut = true

/-- What a caller asks: distinct descriptors that differ from the pipes of the multisockets among
them, and of a multisocket one event at least. -/
structure Asked (hash : SockHash) (fds : List Pollfd) : Prop where
  distinct : (fds.map Pollfd.fd).Nodup
  apart : ∀ entry ∈ fds, ∀ sk, hash.table entry.fd = some sk → ∀ other ∈ fds,
    other.fd ≠ sk.selectPipe ∧ other.fd ≠ sk.writeReadyPipe
  asks : ∀ entry ∈ fds, AsksSome hash entry

/-- The events of an entry are those that were reported. -/
def Answers (hash : SockHash) (reported : Int → PollFlags) (entry : Pollfd) : Prop :=
  match hash.table entry.fd with
  | none => entry.revents = reported entry.fd
  | some sk =>
      (entry.revents &&& pollIn ≠ 0 ↔ reported sk.selectPipe &&& pollIn ≠ 0) ∧
      (entry.revents &&& pollOut ≠ 0 ↔ reported sk.writeReadyPipe &&& pollIn ≠ 0)

/-- A call reads no entry beyond the caller's, gives each its events, and returns a failure or the
number of entries that have some. -/
def Exact (hash : SockHash) (fds : List Pollfd) (rc : Int) (reported : Int → PollFlags) :
    Outcome → Prop
  | .trapped => False
  | .returned result after =>
      after.map (fun entry => (entry.fd, entry.events)) =
        fds.map (fun entry => (entry.fd, entry.events)) ∧
      (∀ entry ∈ after, Answers hash reported entry) ∧
      result = if rc < 0 then rc else after.countP fun entry => entry.revents ≠ 0

/-- No null bootstrapper is followed for the entry. -/
def Bootstrapped (hash : SockHash) (entry : Pollfd) : Prop :=
  ∀ sk, hash.table entry.fd = some sk → entry.asks pollOut = true → sk.bootstrapper.isSome = true

/-- The entry is one of a multisocket that asks for both events. -/
def AsksBoth (hash : SockHash) (entry : Pollfd) : Prop :=
  (hash.table entry.fd).isSome = true ∧ entry.asks pollIn = true ∧ entry.asks pollOut = true

/-! ### The kernel's array -/

/-- The entries for a multisocket, one for each event that is asked for. -/
def pipeEntries (sk : Multisocket) (entry : Pollfd) : List Pollfd :=
  (if entry.asks pollIn then [{ entry with fd := sk.selectPipe, events := pollIn }] else []) ++
    if entry.asks pollOut then [{ entry with fd := sk.writeReadyPipe, events := pollIn }] else []

/-- The entries for one of the caller's. -/
def kernelEntries (hash : SockHash) (entry : Pollfd) : List Pollfd :=
  match hash.table entry.fd with
  | none => [entry]
  | some sk => pipeEntries sk entry

section Translation

variable {hash : SockHash} {fds : List Pollfd} {entry : Pollfd} {sk : Multisocket}

theorem realEntries_of_asks (held : hash.table entry.fd = some sk)
    (asks : entry.asks pollIn = true ∨ entry.asks pollOut = true) :
    realEntries hash entry =
      if entry.asks pollOut = true ∧ sk.bootstrapper = none then .error .trapped
      else .ok (pipeEntries sk entry) := by
  have different := SockHash.selectPipe_ne held
  unfold realEntries pipeEntries
  rw [held]
  cases reads : entry.asks pollIn with
  | false =>
      have writes : entry.asks pollOut = true := asks.resolve_left (by rw [reads]; decide)
      cases boot : sk.bootstrapper with
      | none => simp [writes, boot, Multisocket.getFdsForSelect]
      | some status =>
          simp [writes, boot, Multisocket.getFdsForSelect, realEntry, different.symm]
  | true =>
      cases writes : entry.asks pollOut with
      | false => simp [Multisocket.getFdsForSelect, realEntry, reads]
      | true =>
          cases boot : sk.bootstrapper with
          | none => simp [boot, Multisocket.getFdsForSelect]
          | some status =>
              simp [boot, Multisocket.getFdsForSelect, realEntry, reads, writes, different.symm]

theorem realEntries_of_bootstrapped (asks : AsksSome hash entry)
    (bootstrapped : Bootstrapped hash entry) :
    realEntries hash entry = .ok (kernelEntries hash entry) := by
  cases held : hash.table entry.fd with
  | none => rw [realEntries, kernelEntries, held]
  | some sk =>
      have ready : ¬(entry.asks pollOut = true ∧ sk.bootstrapper = none) := by
        rintro ⟨writes, null⟩
        have present := bootstrapped sk held writes
        rw [null] at present
        exact Bool.false_ne_true present
      rw [realEntries_of_asks held (asks (by rw [held]; rfl)), if_neg ready, kernelEntries, held]

theorem realEntries_of_not (null : ¬Bootstrapped hash entry) :
    realEntries hash entry = .error .trapped := by
  unfold Bootstrapped at null
  push Not at null
  obtain ⟨sk, held, writes, missing⟩ := null
  rw [realEntries_of_asks held (.inr writes), if_pos]
  exact ⟨writes, Option.not_isSome_iff_eq_none.mp missing⟩

/-- An entry of the caller's has two of the kernel's if it asks for both events, and else one. -/
theorem length_kernelEntries (asks : AsksSome hash entry) :
    1 ≤ (kernelEntries hash entry).length ∧
      (AsksBoth hash entry → (kernelEntries hash entry).length = 2) := by
  unfold kernelEntries AsksBoth
  cases held : hash.table entry.fd with
  | none => exact ⟨Nat.le_refl _, fun both => absurd both.1 Bool.false_ne_true⟩
  | some sk =>
      simp only [pipeEntries]
      rcases asks (by rw [held]; rfl) with reads | writes
      · rw [if_pos reads, List.length_append]
        refine ⟨Nat.le_add_right _ _, fun both => ?_⟩
        rw [if_pos both.2.2]
        rfl
      · rw [if_pos writes, List.length_append]
        refine ⟨Nat.le_add_left _ _, fun both => ?_⟩
        rw [if_pos both.2.1]
        rfl

/-- The entry of the kernel's for one that does not ask for both events. -/
def inStep (hash : SockHash) (entry : Pollfd) : Pollfd :=
  match hash.table entry.fd with
  | none => entry
  | some sk => { entry with
      fd := if entry.asks pollIn then sk.selectPipe else sk.writeReadyPipe
      events := pollIn }

theorem kernelEntries_of_not_asksBoth (asks : AsksSome hash entry)
    (one : ¬AsksBoth hash entry) :
    kernelEntries hash entry = [inStep hash entry] := by
  unfold kernelEntries inStep
  cases held : hash.table entry.fd with
  | none => rfl
  | some sk =>
      have present : (hash.table entry.fd).isSome := by
        rw [held]
        rfl
      simp only [pipeEntries]
      cases reads : entry.asks pollIn with
      | true =>
          have quiet : entry.asks pollOut = false :=
            Bool.eq_false_iff.mpr fun writes => one ⟨present, reads, writes⟩
          rw [quiet]
          rfl
      | false =>
          have writes : entry.asks pollOut = true :=
            (asks present).resolve_left (by rw [reads]; exact Bool.false_ne_true)
          rw [writes]
          rfl

end Translation

/-- The kernel's array for the caller's, with the indices. -/
def kernelArray (hash : SockHash) : List Pollfd → Nat → List (Pollfd × Nat)
  | [], _ => []
  | entry :: rest, i => (kernelEntries hash entry).map (·, i) ++ kernelArray hash rest (i + 1)

section Array

variable {hash : SockHash} {fds : List Pollfd}

theorem realFds_of_bootstrapped (asks : ∀ entry ∈ fds, AsksSome hash entry)
    (bootstrapped : ∀ entry ∈ fds, Bootstrapped hash entry) (i : Nat) :
    realFds hash fds i = .ok (kernelArray hash fds i) := by
  induction fds generalizing i with
  | nil => rfl
  | cons entry rest ih =>
      have here := realEntries_of_bootstrapped (asks entry List.mem_cons_self)
        (bootstrapped entry List.mem_cons_self)
      have later := ih (fun other member => asks other (List.mem_cons_of_mem _ member))
        (fun other member => bootstrapped other (List.mem_cons_of_mem _ member)) (i + 1)
      rw [realFds, here, later]
      rfl

theorem realFds_of_not (asks : ∀ entry ∈ fds, AsksSome hash entry)
    (null : ∃ entry ∈ fds, ¬Bootstrapped hash entry) (i : Nat) :
    realFds hash fds i = .error .trapped := by
  induction fds generalizing i with
  | nil =>
      obtain ⟨entry, member, -⟩ := null
      exact absurd member List.not_mem_nil
  | cons entry rest ih =>
      rw [realFds]
      by_cases bootstrapped : Bootstrapped hash entry
      · have rest_null : ∃ other ∈ rest, ¬Bootstrapped hash other := by
          obtain ⟨other, member, missing⟩ := null
          rcases List.mem_cons.mp member with rfl | later
          · exact absurd bootstrapped missing
          · exact ⟨other, later, missing⟩
        rw [realEntries_of_bootstrapped (asks entry List.mem_cons_self) bootstrapped,
          ih (fun other member => asks other (List.mem_cons_of_mem _ member)) rest_null]
        rfl
      · rw [realEntries_of_not bootstrapped]
        rfl

/-- Where an entry asks for both events, the kernel's array is longer than the caller's. -/
theorem length_kernelArray (asks : ∀ entry ∈ fds, AsksSome hash entry) (i : Nat) :
    fds.length ≤ (kernelArray hash fds i).length ∧
      ((∃ entry ∈ fds, AsksBoth hash entry) → fds.length < (kernelArray hash fds i).length) := by
  induction fds generalizing i with
  | nil => exact ⟨Nat.le_refl _, fun both => absurd both.choose_spec.1 List.not_mem_nil⟩
  | cons entry rest ih =>
      obtain ⟨one, two⟩ := length_kernelEntries (asks entry List.mem_cons_self)
      obtain ⟨long, longer⟩ :=
        ih (fun other member => asks other (List.mem_cons_of_mem _ member)) (i + 1)
      rw [kernelArray, List.length_append, List.length_map, List.length_cons]
      refine ⟨by omega, fun both => ?_⟩
      obtain ⟨other, member, asksBoth⟩ := both
      rcases List.mem_cons.mp member with rfl | later
      · have pair := two asksBoth
        omega
      · have more := longer ⟨other, later, asksBoth⟩
        omega

theorem kernelArray_of_not_asksBoth (asks : ∀ entry ∈ fds, AsksSome hash entry)
    (one : ∀ entry ∈ fds, ¬AsksBoth hash entry) (i : Nat) :
    kernelArray hash fds i = (fds.zipIdx i).map fun entry => (inStep hash entry.1, entry.2) := by
  induction fds generalizing i with
  | nil => rfl
  | cons entry rest ih =>
      rw [kernelArray, kernelEntries_of_not_asksBoth (asks entry List.mem_cons_self)
        (one entry List.mem_cons_self),
        ih (fun other member => asks other (List.mem_cons_of_mem _ member))
          fun other member => one other (List.mem_cons_of_mem _ member)]
      rfl

end Array

@[simp] theorem State.correct_fds (state : State) (fd : Int) (revents : PollFlags) :
    (state.correct fd revents).fds = state.fds := by
  unfold State.correct
  split_ifs <;> rfl

/-- Every step reads an entry of the caller's array. -/
theorem mapBack_length {hash : SockHash} {real rest : List (Pollfd × Nat)}
    {reported : Int → PollFlags} {i : Nat} {state after : State}
    (mapped : mapBack hash real reported rest i state = some after) :
    rest = [] ∨ i + rest.length ≤ state.fds.length := by
  induction rest generalizing i state with
  | nil => exact .inl rfl
  | cons realfd rest ih =>
      rw [mapBack] at mapped
      obtain ⟨orig, -, mapped⟩ := Option.bind_eq_some_iff.mp mapped
      obtain ⟨origfd, -, mapped⟩ := Option.bind_eq_some_iff.mp mapped
      obtain ⟨here, read, mapped⟩ := Option.bind_eq_some_iff.mp mapped
      obtain ⟨inside, -⟩ := List.getElem?_eq_some_iff.mp read
      right
      rw [List.length_cons]
      rcases ih mapped with rfl | bound
      · exact inside
      · rw [State.correct_fds, List.length_set] at bound
        omega

/-! ### Mapping back in step -/

/-- An entry with its events. -/
def answered (hash : SockHash) (reported : Int → PollFlags) (entry : Pollfd) : Pollfd :=
  { entry with revents :=
      eventsBack hash entry entry (inStep hash entry).fd (reported (inStep hash entry).fd) }

section InStep

variable {hash : SockHash} {reported : Int → PollFlags}

/-- The first entry for a descriptor needs no correction. -/
theorem State.correct_of_fresh {state : State} {fd : Int} {revents : PollFlags}
    (fresh : fd ∉ state.origFds) :
    (state.correct fd revents).rc = state.rc ∧
      ∀ other ∈ (state.correct fd revents).origFds, other = fd ∨ other ∈ state.origFds := by
  unfold State.correct
  split_ifs
  · exact ⟨rfl, fun _ member => .inr member⟩
  · exact ⟨rfl, fun _ member => List.mem_cons.mp member⟩

/-- Each entry of the kernel's is mapped back to the one at its index. -/
theorem mapBack_inStep {real : List (Pollfd × Nat)} (todo done : List Pollfd) (state : State)
    (fds : state.fds = done ++ todo) (distinct : (todo.map Pollfd.fd).Nodup)
    (fresh : ∀ entry ∈ todo, entry.fd ∉ state.origFds)
    (found : ∀ entry i, (entry, i) ∈ todo.zipIdx done.length →
      osfdsToPollfds real (inStep hash entry).fd = some i) :
    ∃ after, mapBack hash real reported
      ((todo.zipIdx done.length).map fun entry => (inStep hash entry.1, entry.2)) done.length
      state = some after ∧ after.fds = done ++ todo.map (answered hash reported) ∧
        after.rc = state.rc := by
  induction todo generalizing done state with
  | nil => exact ⟨state, rfl, fds, rfl⟩
  | cons entry rest ih =>
      obtain ⟨apart, distinctRest⟩ := List.nodup_cons.mp distinct
      have orig := found entry done.length List.mem_cons_self
      have here : state.fds[done.length]? = some entry := by
        rw [fds, List.getElem?_append_right (Nat.le_refl _), Nat.sub_self]
        rfl
      have set : state.fds.set done.length (answered hash reported entry) =
          done ++ [answered hash reported entry] ++ rest := by
        rw [fds, List.set_append_right _ _ (Nat.le_refl _), Nat.sub_self, List.set_cons_zero,
          List.append_assoc]
        rfl
      let stored : State :=
        ⟨state.fds.set done.length (answered hash reported entry), state.rc, state.origFds⟩
      obtain ⟨count, noted⟩ := @State.correct_of_fresh stored entry.fd
        (answered hash reported entry).revents (fresh entry List.mem_cons_self)
      have length : (done ++ [answered hash reported entry]).length = done.length + 1 :=
        List.length_append
      obtain ⟨after, mapped, held, same⟩ := ih (done ++ [answered hash reported entry])
        (stored.correct entry.fd (answered hash reported entry).revents)
        ((State.correct_fds ..).trans set) distinctRest (by
          intro other member used
          rcases noted other.fd used with equal | earlier
          · exact apart (equal ▸ List.mem_map_of_mem member)
          · exact fresh other (List.mem_cons_of_mem _ member) earlier) (by
          rw [length]
          exact fun other i member => found other i (List.mem_cons_of_mem _ member))
      refine ⟨after, ?_, ?_, same.trans count⟩
      · rw [length] at mapped
        rw [List.zipIdx_cons, List.map_cons, mapBack, orig, Option.bind_some, here,
          Option.bind_some, Option.bind_some]
        exact mapped
      · rw [held, List.append_assoc]
        rfl

/-- Where the kernel's descriptors are distinct, each is found with its own index. -/
theorem osfdsToPollfds_of_mem {real : List (Pollfd × Nat)} {assigned : Pollfd × Nat}
    (distinct : (real.map fun other => other.1.fd).Nodup) (member : assigned ∈ real) :
    osfdsToPollfds real assigned.1.fd = some assigned.2 := by
  cases found : real.reverse.find? fun other => other.1.fd = assigned.1.fd with
  | none =>
      have missed := List.find?_eq_none.mp found assigned (List.mem_reverse.mpr member)
      exact absurd (decide_eq_true rfl) missed
  | some other =>
      have matched := (List.find?_eq_some_iff_append.mp found).1
      have same := List.inj_on_of_nodup_map distinct
        (List.mem_reverse.mp (List.mem_of_find?_eq_some found)) member (of_decide_eq_true matched)
      rw [osfdsToPollfds, found, same]
      rfl

variable {fds : List Pollfd} {entry other : Pollfd} {sk : Multisocket}

theorem inStep_fd (held : hash.table entry.fd = some sk) :
    (inStep hash entry).fd = if entry.asks pollIn then sk.selectPipe else sk.writeReadyPipe := by
  rw [inStep, held]

/-- The descriptor that is polled for a multisocket is one of its two pipes. -/
theorem inStep_fd_or (held : hash.table entry.fd = some sk) :
    (inStep hash entry).fd = sk.selectPipe ∨ (inStep hash entry).fd = sk.writeReadyPipe := by
  rw [inStep_fd held]
  split_ifs
  · exact .inl rfl
  · exact .inr rfl

theorem mem_underlying_of_pipe {pipe : Int}
    (isPipe : pipe = sk.selectPipe ∨ pipe = sk.writeReadyPipe) : pipe ∈ sk.underlying := by
  rcases isPipe with rfl | rfl
  · exact List.mem_cons_self
  · exact List.mem_cons_of_mem _ List.mem_cons_self

/-- A pipe of a multisocket is polled for its own entry only. -/
theorem Asked.eq_of_polled (asked : Asked hash fds) (member : entry ∈ fds)
    (memberToo : other ∈ fds) (held : hash.table entry.fd = some sk) {pipe : Int}
    (isPipe : pipe = sk.selectPipe ∨ pipe = sk.writeReadyPipe)
    (polled : (inStep hash other).fd = pipe) : other = entry := by
  have belongs := mem_underlying_of_pipe isPipe
  cases heldToo : hash.table other.fd with
  | none =>
      have differs := asked.apart entry member sk held other memberToo
      rw [inStep, heldToo] at polled
      rcases isPipe with rfl | rfl
      · exact absurd polled differs.1
      · exact absurd polled differs.2
  | some owner =>
      have same := SockHash.eq_of_mem_underlying heldToo held
        (polled ▸ mem_underlying_of_pipe (inStep_fd_or heldToo)) belongs
      exact List.inj_on_of_nodup_map asked.distinct memberToo member same

/-- The kernel's descriptors are distinct. -/
theorem Asked.distinct_inStep (asked : Asked hash fds) :
    (fds.map fun entry => (inStep hash entry).fd).Nodup := by
  apply List.Nodup.map_on _ (asked.distinct.of_map _)
  intro entry member other memberToo same
  cases held : hash.table entry.fd with
  | some sk =>
      exact (asked.eq_of_polled member memberToo held (inStep_fd_or held) same.symm).symm
  | none =>
      cases heldToo : hash.table other.fd with
      | some sk =>
          exact asked.eq_of_polled memberToo member heldToo (inStep_fd_or heldToo) same
      | none =>
          rw [inStep, inStep, held, heldToo] at same
          exact List.inj_on_of_nodup_map asked.distinct member memberToo same

theorem noEvents_or (revents : PollFlags) : 0 ||| revents = revents := BitVec.zero_or

theorem noEvents_and (flag : PollFlags) : (0 : PollFlags) &&& flag = 0 := BitVec.zero_and

/-- A pipe is not asked for `POLLOUT`. -/
theorem and_pollOut {revents : PollFlags} (within : revents &&& ~~~(pollIn ||| pollAlways) = 0) :
    revents &&& pollOut = 0 := by
  have kept : ~~~(pollIn ||| pollAlways) &&& pollOut = pollOut := by decide
  rw [← kept, ← BitVec.and_assoc, within, noEvents_and]

/-- The events of a pipe, for an entry that asks for one event. -/
theorem revents_answered (held : hash.table entry.fd = some sk) (zero : entry.revents = 0) :
    (answered hash reported entry).revents =
      if entry.asks pollIn then reported sk.selectPipe
      else if reported sk.writeReadyPipe &&& pollIn ≠ 0 then pollOut
      else reported sk.writeReadyPipe := by
  simp only [answered, eventsBack, held, zero, noEvents_or, inStep_fd held]
  by_cases reads : entry.asks pollIn = true
  · rw [if_pos reads, if_pos reads, if_neg]
    exact fun both => SockHash.selectPipe_ne held both.1
  · rw [if_neg reads, if_neg reads]
    simp only [true_and]

/-- An entry has events if and only if some were reported of its descriptor. -/
theorem answered_ne_zero_iff (zero : entry.revents = 0) :
    (answered hash reported entry).revents ≠ 0 ↔ reported (inStep hash entry).fd ≠ 0 := by
  cases held : hash.table entry.fd with
  | none => rw [answered, eventsBack, held]
  | some sk =>
      rw [revents_answered held zero, inStep_fd held]
      split_ifs with reads readable
      · rfl
      · refine iff_of_true (by decide) fun none => readable ?_
        rw [none, noEvents_and]
      · rfl

/-- What is reported of a pipe that no entry is polled for is nothing. -/
theorem reported_of_unpolled {real : List Pollfd} {rc : Int} (reports : Reports real rc reported)
    (asked : Asked hash fds) (array : real = fds.map (inStep hash)) (member : entry ∈ fds)
    (held : hash.table entry.fd = some sk) {pipe : Int}
    (isPipe : pipe = sk.selectPipe ∨ pipe = sk.writeReadyPipe)
    (unpolled : (inStep hash entry).fd ≠ pipe) : reported pipe = 0 := by
  apply reports.others
  intro polled memberToo same
  rw [array] at memberToo
  obtain ⟨other, present, rfl⟩ := List.mem_map.mp memberToo
  have own := asked.eq_of_polled member present held isPipe same
  exact unpolled (own ▸ same)

/-- In step every entry gets what was reported for it. -/
theorem answers_inStep {real : List Pollfd} {rc : Int} (reports : Reports real rc reported)
    (asked : Asked hash fds) (array : real = fds.map (inStep hash)) (member : entry ∈ fds)
    (zero : entry.revents = 0) : Answers hash reported (answered hash reported entry) := by
  have same : (answered hash reported entry).fd = entry.fd := rfl
  unfold Answers
  rw [same]
  cases held : hash.table entry.fd with
  | none =>
      simp only [answered, eventsBack, inStep, held]
  | some sk =>
      have different := SockHash.selectPipe_ne held
      have within := reports.within (inStep hash entry) (array ▸ List.mem_map_of_mem member)
      have events : (inStep hash entry).events = pollIn := by rw [inStep, held]
      have fd := @inStep_fd hash entry sk held
      rw [events] at within
      have quiet := and_pollOut within
      simp only [revents_answered held zero]
      by_cases reads : entry.asks pollIn = true
      · rw [if_pos reads] at fd ⊢
        have unpolled := reported_of_unpolled reports asked array member held (.inr rfl)
          (fd ▸ different)
        rw [fd] at quiet
        rw [unpolled, quiet, noEvents_and]
        exact ⟨Iff.rfl, Iff.rfl⟩
      · rw [if_neg reads] at fd ⊢
        have unpolled := reported_of_unpolled reports asked array member held (.inl rfl)
          (fd ▸ different.symm)
        rw [fd] at quiet
        rw [unpolled, noEvents_and]
        by_cases readable : reported sk.writeReadyPipe &&& pollIn = 0
        · rw [if_neg (not_not_intro readable), readable, quiet]
          exact ⟨Iff.rfl, Iff.rfl⟩
        · rw [if_pos readable]
          exact ⟨iff_of_false (by decide) (by decide), iff_of_true (by decide) readable⟩

end InStep

/-! ### The whole call -/

section Call

variable {hash : SockHash} {reported : Int → PollFlags} {fds : List Pollfd} {rc : Int}

/-- The caller's array when the call has reset its events. -/
def reset (fds : List Pollfd) : List Pollfd := fds.map fun entry => { entry with revents := 0 }

theorem mem_reset {entry : Pollfd} (member : entry ∈ reset fds) :
    entry.revents = 0 ∧ ∃ other ∈ fds, other.fd = entry.fd ∧ other.events = entry.events := by
  obtain ⟨other, present, rfl⟩ := List.mem_map.mp member
  exact ⟨rfl, other, present, rfl, rfl⟩

theorem map_reset {α : Type*} (view : Int → PollFlags → α) :
    (reset fds).map (fun entry => view entry.fd entry.events) =
      fds.map fun entry => view entry.fd entry.events := by
  rw [reset, List.map_map]
  rfl

/-- What is asked is not changed. -/
theorem forall_mem_reset {motive : Int → PollFlags → Prop} :
    (∀ entry ∈ reset fds, motive entry.fd entry.events) ↔
      ∀ entry ∈ fds, motive entry.fd entry.events := by
  rw [reset]
  exact List.forall_mem_map

theorem Asked.reset (asked : Asked hash fds) : Asked hash (reset fds) where
  distinct := by
    rw [map_reset fun fd _ => fd]
    exact asked.distinct
  apart entry member sk held other memberToo := by
    obtain ⟨-, first, present, fd, -⟩ := mem_reset member
    obtain ⟨-, second, presentToo, fdToo, -⟩ := mem_reset memberToo
    rw [← fd] at held
    rw [← fdToo]
    exact asked.apart first present sk held second presentToo
  asks entry member := by
    obtain ⟨-, other, present, fd, events⟩ := mem_reset member
    have asks := asked.asks other present
    unfold AsksSome Pollfd.asks at asks ⊢
    rwa [fd, events] at asks

theorem Reports.zero {real : List Pollfd} (reports : Reports real rc reported) (none : rc ≤ 0)
    (fd : Int) : reported fd = 0 := by
  rcases Int.lt_or_eq_of_le none with negative | zero
  · exact reports.failed negative fd
  · by_contra some
    have polled : ∃ entry ∈ real, entry.fd = fd := by
      by_contra missing
      push Not at missing
      exact some (reports.others fd missing)
    obtain ⟨entry, member, rfl⟩ := polled
    have counted := reports.count (Int.le_of_eq zero.symm)
    have positive : 0 < real.countP fun entry => reported entry.fd ≠ 0 :=
      List.countP_pos_iff.mpr ⟨entry, member, decide_eq_true some⟩
    omega

/-- A poll that reports nothing leaves the entries without events. -/
theorem exact_of_nothing {real : List Pollfd} (reports : Reports real rc reported)
    (none : rc ≤ 0) : Exact hash fds rc reported (.returned rc (reset fds)) := by
  have quiet := reports.zero none
  refine ⟨map_reset Prod.mk, fun entry member => ?_, ?_⟩
  · have zero := (mem_reset member).1
    unfold Answers
    cases hash.table entry.fd with
    | none => rw [zero, quiet]
    | some sk =>
        simp only
        rw [zero, quiet sk.selectPipe, quiet sk.writeReadyPipe, noEvents_and, noEvents_and]
        exact ⟨Iff.rfl, Iff.rfl⟩
  · split_ifs with negative
    · rfl
    · have unmarked : (reset fds).countP (fun entry => decide (entry.revents ≠ 0)) = 0 := by
        rw [List.countP_eq_zero]
        intro entry member
        rw [(mem_reset member).1]
        decide
      rw [unmarked]
      exact Int.le_antisymm none (Int.not_lt.mp negative)

/-- In step the whole array is mapped back. -/
theorem exact_inStep (asked : Asked hash (reset fds))
    (one : ∀ entry ∈ reset fds, ¬AsksBoth hash entry)
    (reports : Reports ((kernelArray hash (reset fds) 0).map Prod.fst) rc reported)
    (some : 0 < rc) : ∃ after, mapBack hash (kernelArray hash (reset fds) 0) reported
      (kernelArray hash (reset fds) 0) 0 ⟨reset fds, rc, []⟩ = .some after ∧
        Exact hash fds rc reported (.returned after.rc after.fds) := by
  have array := kernelArray_of_not_asksBoth asked.asks one 0
  have kernel : (kernelArray hash (reset fds) 0).map Prod.fst = (reset fds).map (inStep hash) := by
    rw [array, List.map_map]
    conv => rhs; rw [← List.zipIdx_map_fst 0 (reset fds), List.map_map]
    rfl
  have distinct : ((kernelArray hash (reset fds) 0).map fun other => other.1.fd).Nodup := by
    have same : ((kernelArray hash (reset fds) 0).map fun other => other.1.fd) =
        (((kernelArray hash (reset fds) 0).map Prod.fst).map Pollfd.fd) := by
      rw [List.map_map]
      rfl
    rw [same, kernel, List.map_map]
    exact asked.distinct_inStep
  obtain ⟨after, mapped, held, same⟩ := @mapBack_inStep hash reported
    (kernelArray hash (reset fds) 0) (reset fds) [] ⟨reset fds, rc, []⟩ rfl asked.distinct
    (fun _ _ => List.not_mem_nil) (by
      intro entry i member
      apply @osfdsToPollfds_of_mem _ (inStep hash entry, i) distinct
      rw [array]
      exact List.mem_map.mpr ⟨(entry, i), member, rfl⟩)
  rw [List.length_nil, ← array] at mapped
  rw [List.nil_append] at held
  refine ⟨after, mapped, ?_, ?_, ?_⟩
  · rw [held, List.map_map]
    exact map_reset Prod.mk
  · intro entry member
    rw [held] at member
    obtain ⟨first, present, rfl⟩ := List.mem_map.mp member
    exact answers_inStep reports asked kernel present (mem_reset present).1
  · rw [if_neg (Int.not_lt.mpr (Int.le_of_lt some)), same, held, List.countP_map]
    refine (reports.count (Int.le_of_lt some)).trans ?_
    rw [kernel, List.countP_map]
    refine congrArg Int.ofNat (List.countP_congr fun entry member => ?_)
    rw [Function.comp_apply, Function.comp_apply, decide_eq_true_iff, decide_eq_true_iff]
    exact (answered_ne_zero_iff (mem_reset member).1).symm

/-- A call is exact if and only if it follows no null bootstrapper and, where the kernel reports
anything, no entry asks for both events of a multisocket. -/
theorem mcPoll_exact_iff (asked : Asked hash fds)
    (reports : ∀ real, realFds hash (reset fds) 0 = .ok real →
      Reports (real.map Prod.fst) rc reported) :
    Exact hash fds rc reported (mcPoll hash fds rc reported) ↔
      (∀ entry ∈ fds, Bootstrapped hash entry) ∧
        (0 < rc → ∀ entry ∈ fds, ¬AsksBoth hash entry) := by
  have askedToo := asked.reset
  have unchanged : (∀ entry ∈ reset fds, Bootstrapped hash entry) ↔
      ∀ entry ∈ fds, Bootstrapped hash entry := @forall_mem_reset fds fun fd events =>
    ∀ sk, hash.table fd = some sk → decide (events &&& pollOut ≠ 0) = true →
      sk.bootstrapper.isSome = true
  have unchangedToo : (∀ entry ∈ reset fds, ¬AsksBoth hash entry) ↔
      ∀ entry ∈ fds, ¬AsksBoth hash entry := @forall_mem_reset fds fun fd events =>
    ¬((hash.table fd).isSome = true ∧ decide (events &&& pollIn ≠ 0) = true ∧
      decide (events &&& pollOut ≠ 0) = true)
  have called : mcPoll hash fds rc reported = match realFds hash (reset fds) 0 with
      | .error .trapped => .trapped
      | .error .notConnected => .returned (-1) (reset fds)
      | .ok real =>
          if rc ≤ 0 then .returned rc (reset fds)
          else match mapBack hash real reported real 0 ⟨reset fds, rc, []⟩ with
            | none => .trapped
            | some state => .returned state.rc state.fds := rfl
  rw [← unchanged, ← unchangedToo, called]
  by_cases bootstrapped : ∀ entry ∈ reset fds, Bootstrapped hash entry
  · have kernel := realFds_of_bootstrapped askedToo.asks bootstrapped 0
    have polled := reports _ kernel
    rw [kernel]
    rcases Int.lt_or_le 0 rc with some | none
    · simp only [if_neg (Int.not_le.mpr some)]
      by_cases one : ∀ entry ∈ reset fds, ¬AsksBoth hash entry
      · obtain ⟨after, mapped, exact⟩ := exact_inStep askedToo one polled some
        rw [mapped]
        exact iff_of_true exact ⟨bootstrapped, fun _ => one⟩
      · push Not at one
        have longer := (length_kernelArray askedToo.asks 0).2 one
        cases mapped : mapBack hash (kernelArray hash (reset fds) 0) _
            (kernelArray hash (reset fds) 0) 0 ⟨reset fds, rc, []⟩ with
        | none =>
            refine iff_of_false not_false fun condition => ?_
            obtain ⟨entry, member, both⟩ := one
            exact condition.2 some entry member both
        | some after =>
            rcases mapBack_length mapped with empty | bound
            · rw [empty] at longer
              exact absurd longer (Nat.not_lt_zero _)
            · rw [Nat.zero_add] at bound
              exact absurd bound (Nat.not_le.mpr longer)
    · simp only [if_pos none]
      exact iff_of_true (exact_of_nothing polled none)
        ⟨bootstrapped, fun some => absurd some (Int.not_lt.mpr none)⟩
  · have null : ∃ entry ∈ reset fds, ¬Bootstrapped hash entry := by
      push Not at bootstrapped
      exact bootstrapped
    rw [realFds_of_not askedToo.asks null]
    exact iff_of_false not_false fun condition => bootstrapped condition.1

end Call

/-- One multisocket that is connected, and one for which `cmm_connect` was not called. -/
def twoMultisockets : SockHash where
  table s :=
    if s = 5 then some ⟨10, 12, [], some 0, false⟩
    else if s = 6 then some ⟨14, 16, [], none, false⟩
    else none
  distinct s sk held := by
    split_ifs at held <;> cases held <;> decide
  apart s t sk other held heldToo different := by
    split_ifs at held heldToo with first second third <;> cases held <;> cases heldToo
    · exact absurd (first.trans second.symm) different
    · decide
    · decide
    · omega
  notNumbers s sk held := by
    split_ifs at held <;> cases held <;> decide

/-- The array for a single descriptor. -/
def single (fd : Int) (events : PollFlags) : List Pollfd := [⟨fd, events, 0⟩]

/-- A kernel that reports `POLLIN` of some descriptors. -/
def readable (ready : List Int) (fd : Int) : PollFlags := if fd ∈ ready then pollIn else 0

theorem reports_readable {real : List Pollfd} {ready : List Int} {rc : Int} (nonneg : 0 ≤ rc)
    (count : rc = real.countP fun entry => readable ready entry.fd ≠ 0)
    (within : ∀ entry ∈ real, readable ready entry.fd &&& ~~~(entry.events ||| pollAlways) = 0)
    (polled : ∀ fd ∈ ready, ∃ entry ∈ real, entry.fd = fd) :
    Reports real rc (readable ready) where
  failed negative := absurd nonneg (Int.not_le.mpr negative)
  count _ := count
  within := within
  others fd missing := by
    apply if_neg
    intro member
    obtain ⟨entry, present, same⟩ := polled fd member
    exact missing entry present same

theorem asked_single {hash : SockHash} {fd : Int} {events : PollFlags} {sk : Multisocket}
    (held : hash.table fd = some sk) (apart : fd ≠ sk.selectPipe ∧ fd ≠ sk.writeReadyPipe)
    (asks : AsksSome hash ⟨fd, events, 0⟩) : Asked hash (single fd events) where
  distinct := List.nodup_singleton _
  apart entry member other heldToo last memberToo := by
    cases List.mem_singleton.mp member
    cases List.mem_singleton.mp memberToo
    cases held.symm.trans heldToo
    exact apart
  asks entry member := by
    cases List.mem_singleton.mp member
    exact asks

/-- Both events of a multisocket, of which one is reported, and `POLLOUT` of one that is not
connected. -/
theorem both_events :
    (Asked twoMultisockets (single 5 (pollIn ||| pollOut)) ∧
      (∀ real, realFds twoMultisockets (reset (single 5 (pollIn ||| pollOut))) 0 = .ok real →
        Reports (real.map Prod.fst) 1 (readable [12])) ∧
      ¬Exact twoMultisockets (single 5 (pollIn ||| pollOut)) 1 (readable [12])
        (mcPoll twoMultisockets (single 5 (pollIn ||| pollOut)) 1 (readable [12]))) ∧
    Asked twoMultisockets (single 6 pollOut) ∧
      ¬Exact twoMultisockets (single 6 pollOut) 0 (readable [])
        (mcPoll twoMultisockets (single 6 pollOut) 0 (readable [])) := by
  refine ⟨⟨?_, ?_, ?_⟩, ?_, ?_⟩
  · exact @asked_single twoMultisockets 5 _ _ rfl (by decide) fun _ => .inl (by decide)
  · intro real translated
    have array : realFds twoMultisockets (reset (single 5 (pollIn ||| pollOut))) 0 =
      .ok [(⟨10, pollIn, 0⟩, 0), (⟨12, pollIn, 0⟩, 0)] := rfl
    cases array.symm.trans translated
    exact reports_readable (by decide) (by decide) (by decide) (by decide)
  · have trapped : mcPoll twoMultisockets (single 5 (pollIn ||| pollOut)) 1 (readable [12]) =
      .trapped := rfl
    rw [trapped]
    exact not_false
  · exact @asked_single twoMultisockets 6 _ _ rfl (by decide) fun _ => .inr (by decide)
  · have trapped : mcPoll twoMultisockets (single 6 pollOut) 0 (readable []) = .trapped := rfl
    rw [trapped]
    exact not_false

/-- Two plain descriptors, and a multisocket for `POLLOUT` between them. -/
def mixed : List Pollfd := [⟨3, pollIn, 0⟩, ⟨5, pollOut, 0⟩, ⟨4, pollIn, 0⟩]

/-- The multisocket is the one entry that stands for pipes. -/
theorem mixed_multisocket {entry : Pollfd} {sk : Multisocket} (member : entry ∈ mixed)
    (held : twoMultisockets.table entry.fd = some sk) :
    entry = ⟨5, pollOut, 0⟩ ∧ sk = ⟨10, 12, [], some 0, false⟩ := by
  simp only [mixed, List.mem_cons, List.not_mem_nil, or_false] at member
  rcases member with rfl | rfl | rfl
  · cases held
  · cases held
    exact ⟨rfl, rfl⟩
  · cases held

theorem mcPoll_exact_iff_mixed : ∃ rc after,
    mcPoll twoMultisockets mixed 2 (readable [12, 4]) = .returned rc after ∧
    Exact twoMultisockets mixed 2 (readable [12, 4]) (.returned rc after) ∧
    after.map Pollfd.revents = [0, pollOut, pollIn] := by
  have asked : Asked twoMultisockets mixed := by
    refine ⟨by decide, ?_, ?_⟩
    · intro entry member sk held
      obtain ⟨-, rfl⟩ := mixed_multisocket member held
      decide
    · intro entry member present
      obtain ⟨sk, held⟩ := Option.isSome_iff_exists.mp present
      obtain ⟨rfl, -⟩ := mixed_multisocket member held
      exact .inr (by decide)
  have exact := (@mcPoll_exact_iff twoMultisockets (readable [12, 4]) mixed 2 asked (by
    intro real translated
    have array : realFds twoMultisockets (reset mixed) 0 =
      .ok [(⟨3, pollIn, 0⟩, 0), (⟨12, pollIn, 0⟩, 1), (⟨4, pollIn, 0⟩, 2)] := rfl
    cases array.symm.trans translated
    exact reports_readable (by decide) (by decide) (by decide) (by decide))).mpr (by
      constructor
      · intro entry member sk held _
        obtain ⟨-, rfl⟩ := mixed_multisocket member held
        rfl
      · rintro - entry member ⟨present, reads, -⟩
        obtain ⟨sk, held⟩ := Option.isSome_iff_exists.mp present
        obtain ⟨rfl, -⟩ := mixed_multisocket member held
        exact absurd reads (by decide))
  exact ⟨_, _, rfl, exact, rfl⟩

end Polling

end Libcmm
