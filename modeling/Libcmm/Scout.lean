import Mathlib.Logic.Function.Basic
import Mathlib.Data.List.Nodup
import Mathlib.Data.List.Perm.Subperm
import Libcmm.Lib.Transition

/-! # Subscribers of the scout (`libcmm_scout.cpp`)

The connection scout tells processes about the network interfaces. `IPC_Listener` waits
for its listening socket and the sockets of the subscribers in `active_fds`, and keeps a
record for every subscriber in `subscriber_procs`, which is a map from socket descriptors.
Another thread writes to the subscribers when an interface changes and removes those it
cannot write to. It has no access to `active_fds`.

One event is a turn of the loop of `IPC_Listener`, or one notification. What the kernel
does is left open: which sockets are ready, which free descriptor a new connection gets,
and which writes fail. A failed `ASSERT` traps (`none`).
-/

namespace Libcmm

open Lib

/-- A descriptor, or any other `int` that is used as a key. -/
abbrev Descriptor := Int

/-- `struct subscriber_proc`. -/
structure SubscriberProc where
  ipcSock : Descriptor
  pid : Int
  deriving DecidableEq

/-- The state of the scout's `IPC_Listener` and the open descriptors. The run ends where
`running` is false. -/
structure Scout where
  controlIpcSock : Descriptor
  activeFds : List Descriptor
  maxfd : Int
  subscriberProcs : Descriptor → Option SubscriberProc
  openFds : List Descriptor
  running : Bool

/-- What becomes of a connection: it is not accepted, its message does not arrive in full,
it is answered and closed (`CMM_MSG_GET_IFACES`, `CMM_MSG_IS_IP_CONNECTED`), or it is a
subscription, with whether `init_subscriber` succeeds. -/
inductive ScoutConnection where
  | acceptFailed (einval : Bool)
  | shortMessage (ipcSock : Descriptor)
  | query (ipcSock : Descriptor)
  | subscribe (ipcSock : Descriptor) (pid : Int) (told : Bool)
  deriving DecidableEq

/-- The descriptor of an accepted connection. -/
def ScoutConnection.ipcSock : ScoutConnection → Option Descriptor
  | .acceptFailed _ => none
  | .shortMessage ipcSock | .query ipcSock | .subscribe ipcSock _ _ => some ipcSock

/-- A turn of the loop in which `select` returns some descriptors, or a notification with
the subscribers that cannot be written to. -/
inductive ScoutEvent where
  | turn (ready : List Descriptor) (connection : ScoutConnection)
  | notify (failedProcs : List Descriptor)

namespace Scout

/-- The loop of `IPC_Listener` starts, with a listening socket. -/
def start (controlIpcSock : Descriptor) : Scout where
  controlIpcSock := controlIpcSock
  activeFds := [controlIpcSock]
  maxfd := controlIpcSock
  subscriberProcs := fun _ => none
  openFds := [controlIpcSock]
  running := true

/-- `close`. -/
def close (scout : Scout) (fd : Descriptor) : Scout :=
  { scout with openFds := scout.openFds.filter (· ≠ fd) }

def setProc (scout : Scout) (key : Descriptor) (proc : Option SubscriberProc) : Scout :=
  { scout with subscriberProcs := Function.update scout.subscriberProcs key proc }

/-- A new descriptor is watched. -/
def watch (scout : Scout) (fd : Descriptor) : Scout :=
  { scout with
    activeFds := scout.activeFds.insert fd
    maxfd := if fd > scout.maxfd then fd else scout.maxfd }

/-- `remove_subscriber`. -/
def removeSubscriber (scout : Scout) (key : Descriptor) (proc : SubscriberProc) : Scout :=
  (scout.close proc.ipcSock).setProc key none

/-- The branch of `IPC_Listener` for a subscription. -/
def subscribe (scout : Scout) (ipcSock : Descriptor) (pid : Int) (told : Bool) : Option Scout :=
  let accepted := { scout with openFds := ipcSock :: scout.openFds }
  match scout.subscriberProcs pid with
  | some proc =>
      let closed := accepted.close proc.ipcSock
      some (if told then (closed.setProc pid (some { proc with ipcSock := ipcSock })).watch ipcSock
        else (closed.close ipcSock).setProc pid none)
  | none =>
      -- where the key is taken the accessor stays empty, and its use asserts
      if (scout.subscriberProcs ipcSock).isSome then none
      else some (if told then (accepted.setProc ipcSock (some ⟨ipcSock, pid⟩)).watch ipcSock
        else (accepted.close ipcSock).setProc ipcSock none)

/-- The branch of `IPC_Listener` for its listening socket, with `ready_fds` before and after. -/
def acceptConnection (scout : Scout) (readyFds : Nat) : ScoutConnection → Option (Scout × Nat)
  | .acceptFailed einval => some ({ scout with running := !einval }, readyFds - 1)
  | .shortMessage _ => some (scout, readyFds)
  | .query _ => some (scout, readyFds - 1)
  | .subscribe ipcSock pid told => (scout.subscribe ipcSock pid told).map (·, readyFds - 1)

/-- The loop over the ready descriptors. A subscriber that is ready unsubscribes or has died. -/
def readSubscribers (fds : List Descriptor) : List Descriptor → Nat → Scout → Option Scout
  | [], _, scout => some scout
  | fd :: rest, readyFds, scout =>
      if readyFds = 0 then some scout
      else if fd ∈ fds then
        match scout.subscriberProcs fd with
        | some proc => readSubscribers fds rest (readyFds - 1)
            { scout.removeSubscriber fd proc with activeFds := scout.activeFds.filter (· ≠ fd) }
        -- ASSERT(0)
        | none => none
      else readSubscribers fds rest readyFds scout

/-- The descriptors up to `maxfd`. -/
def descriptors (scout : Scout) : List Descriptor :=
  (List.range (scout.maxfd + 1).toNat).map Int.ofNat

/-- One turn of the loop of `IPC_Listener`. -/
def turn (scout : Scout) (ready : List Descriptor) (connection : ScoutConnection) : Option Scout :=
  -- select fails where a descriptor is not open
  if ∃ fd ∈ scout.activeFds, fd ∉ scout.openFds then some { scout with running := false }
  else
    (if scout.controlIpcSock ∈ ready then scout.acceptConnection ready.length connection
      else some (scout, ready.length)).bind fun accepted =>
        if accepted.1.running then
          readSubscribers ready accepted.1.descriptors accepted.2 accepted.1
        else some accepted.1

/-- `notify_all_subscribers`, the removal of those that could not be written to. -/
def notifyAllSubscribers (scout : Scout) (failedProcs : List Descriptor) : Scout :=
  failedProcs.foldl (fun sofar victim => match sofar.subscriberProcs victim with
    | some proc => sofar.removeSubscriber victim proc
    | none => sofar) scout

/-- One event. -/
def step (scout : Scout) : ScoutEvent → Option Scout
  | .turn ready connection => scout.turn ready connection
  | .notify failedProcs => some (scout.notifyAllSubscribers failedProcs)

/-- `select` returns watched descriptors, and a connection gets one that is not open. -/
def machine : Machine Scout ScoutEvent where
  initial scout := ∃ sock, 0 ≤ sock ∧ scout = start sock
  permitted scout event := match event with
    | .turn ready connection => scout.running = true ∧ ready.Nodup ∧
        (∀ fd ∈ ready, fd ∈ scout.activeFds) ∧
        ∀ fd ∈ connection.ipcSock, 0 ≤ fd ∧ fd ∉ scout.openFds
    | .notify _ => True
  step := step

instance : ∀ scout event, Decidable (machine.permitted scout event)
  | scout, .turn ready connection => inferInstanceAs (Decidable (scout.running = true ∧
      ready.Nodup ∧ (∀ fd ∈ ready, fd ∈ scout.activeFds) ∧
      ∀ fd ∈ connection.ipcSock, 0 ≤ fd ∧ fd ∉ scout.openFds))
  | _, .notify _ => .isTrue trivial

end Scout

/-- The message of a connection arrives, and a process that subscribes has a number which is
not the descriptor of a subscriber. -/
def ScoutConnection.Served (scout : Scout) : ScoutConnection → Prop
  | .acceptFailed _ | .query _ => True
  | .shortMessage _ => False
  | .subscribe _ pid _ => scout.subscriberProcs pid = none

instance (scout : Scout) : DecidablePred (ScoutConnection.Served scout)
  | .acceptFailed _ | .query _ => .isTrue trivial
  | .shortMessage _ => .isFalse not_false
  | .subscribe _ pid _ => inferInstanceAs (Decidable (scout.subscriberProcs pid = none))

namespace Scout

/-- When the listening socket is ready its connection is served, and no subscriber with a
greater descriptor is ready, too. No subscriber fails to be notified. -/
def Benign (scout : Scout) : ScoutEvent → Prop
  | .turn ready connection => scout.controlIpcSock ∈ ready →
      connection.Served scout ∧ ∀ fd ∈ ready, fd ≤ scout.controlIpcSock
  | .notify failedProcs => ∀ victim ∈ failedProcs, scout.subscriberProcs victim = none

instance (scout : Scout) : DecidablePred scout.Benign
  | .turn ready connection => inferInstanceAs (Decidable (scout.controlIpcSock ∈ ready →
      connection.Served scout ∧ ∀ fd ∈ ready, fd ≤ scout.controlIpcSock))
  | .notify failedProcs =>
      inferInstanceAs (Decidable (∀ victim ∈ failedProcs, scout.subscriberProcs victim = none))

/-- The watched descriptors are the listening socket and those of the subscribers, which are
open. -/
structure Bookkept (scout : Scout) : Prop where
  listening : scout.controlIpcSock ∈ scout.activeFds ∧ scout.controlIpcSock ∈ scout.openFds
  watched : ∀ fd ∈ scout.activeFds, fd ≠ scout.controlIpcSock →
    fd ∈ scout.openFds ∧ ∃ proc, scout.subscriberProcs fd = some proc ∧ proc.ipcSock = fd
  keys : ∀ fd proc, scout.subscriberProcs fd = some proc →
    fd ∈ scout.activeFds ∧ fd ≠ scout.controlIpcSock
  natural : ∀ fd ∈ scout.activeFds, 0 ≤ fd

namespace Bookkept

variable {scout : Scout}

theorem start {sock : Descriptor} (natural : 0 ≤ sock) : (Scout.start sock).Bookkept := by
  refine ⟨⟨List.mem_singleton_self _, List.mem_singleton_self _⟩, fun fd member other => ?_,
    fun fd proc found => ?_, fun fd member => ?_⟩
  · exact (other (List.mem_singleton.mp member)).elim
  · cases found
  · rw [List.mem_singleton.mp member]
    exact natural

/-- A watched descriptor is open. -/
theorem opened (kept : scout.Bookkept) {fd : Descriptor} (member : fd ∈ scout.activeFds) :
    fd ∈ scout.openFds := by
  by_cases same : fd = scout.controlIpcSock
  · exact same ▸ kept.listening.2
  · exact (kept.watched fd member same).1

/-- A subscriber is removed, with its descriptor. -/
theorem remove (kept : scout.Bookkept) {fd : Descriptor} (member : fd ∈ scout.activeFds)
    (other : fd ≠ scout.controlIpcSock) : ∃ proc, scout.subscriberProcs fd = some proc ∧
      Bookkept { scout.removeSubscriber fd proc with
        activeFds := scout.activeFds.filter (· ≠ fd) } := by
  obtain ⟨-, proc, found, named⟩ := kept.watched fd member other
  refine ⟨proc, found, ⟨?_, ?_⟩, fun query watched query' => ?_, fun query next held => ?_,
    fun query watched => kept.natural query (List.mem_filter.mp watched).1⟩
  · exact List.mem_filter.mpr ⟨kept.listening.1, decide_eq_true other.symm⟩
  · rw [removeSubscriber, setProc, close, named]
    exact List.mem_filter.mpr ⟨kept.listening.2, decide_eq_true other.symm⟩
  · obtain ⟨active, apart⟩ := List.mem_filter.mp watched
    obtain ⟨isOpen, record⟩ := kept.watched query active query'
    have different : query ≠ fd := of_decide_eq_true apart
    refine ⟨?_, ?_⟩
    · rw [removeSubscriber, setProc, close, named]
      exact List.mem_filter.mpr ⟨isOpen, apart⟩
    · rw [removeSubscriber, setProc]
      simp only [Function.update_of_ne different]
      exact record
  · rw [removeSubscriber, setProc] at held
    by_cases same : query = fd
    · subst same
      simp only [Function.update_self] at held
      cases held
    · simp only [Function.update_of_ne same] at held
      obtain ⟨active, apart⟩ := kept.keys query next held
      exact ⟨List.mem_filter.mpr ⟨active, decide_eq_true same⟩, apart⟩

/-- A descriptor that was not open is not watched. -/
theorem ne_of_fresh (kept : scout.Bookkept) {ipcSock : Descriptor} (fresh : ipcSock ∉ scout.openFds)
    {fd : Descriptor} (member : fd ∈ scout.activeFds) : fd ≠ ipcSock := by
  rintro rfl
  exact fresh (kept.opened member)

theorem procs_of_fresh (kept : scout.Bookkept) {ipcSock : Descriptor}
    (fresh : ipcSock ∉ scout.openFds) : scout.subscriberProcs ipcSock = none := by
  by_contra used
  obtain ⟨proc, found⟩ := Option.ne_none_iff_exists'.mp used
  exact kept.ne_of_fresh fresh (kept.keys ipcSock proc found).1 rfl

/-- A subscriber is added under its new descriptor. -/
theorem add {after : Scout} (kept : scout.Bookkept) {ipcSock : Descriptor} {pid : Int}
    (natural : 0 ≤ ipcSock) (fresh : ipcSock ∉ scout.openFds)
    (sock : after.controlIpcSock = scout.controlIpcSock)
    (active : after.activeFds = scout.activeFds.insert ipcSock)
    (procs : after.subscriberProcs =
      Function.update scout.subscriberProcs ipcSock (some ⟨ipcSock, pid⟩))
    (opens : after.openFds = ipcSock :: scout.openFds) : after.Bookkept := by
  refine ⟨⟨?_, ?_⟩, fun fd member other => ?_, fun fd proc found => ?_, fun fd member => ?_⟩
  · rw [sock, active]
    exact List.mem_insert_of_mem kept.listening.1
  · rw [sock, opens]
    exact List.mem_cons_of_mem _ kept.listening.2
  · rw [active] at member
    rw [sock] at other
    rw [opens, procs]
    rcases List.mem_insert_iff.mp member with rfl | old
    · exact ⟨List.mem_cons_self, _, Function.update_self _ _ _, rfl⟩
    · obtain ⟨isOpen, record⟩ := kept.watched fd old other
      rw [Function.update_of_ne (kept.ne_of_fresh fresh old)]
      exact ⟨List.mem_cons_of_mem _ isOpen, record⟩
  · rw [procs] at found
    rw [sock, active]
    by_cases same : fd = ipcSock
    · subst same
      refine ⟨List.mem_insert_self, fun listening => ?_⟩
      exact kept.ne_of_fresh fresh kept.listening.1 listening.symm
    · rw [Function.update_of_ne same] at found
      obtain ⟨watched, other⟩ := kept.keys fd proc found
      exact ⟨List.mem_insert_of_mem watched, other⟩
  · rw [active] at member
    rcases List.mem_insert_iff.mp member with rfl | old
    · exact natural
    · exact kept.natural fd old

/-- A subscription of a process that has no record. -/
theorem subscribe (kept : scout.Bookkept) {ipcSock : Descriptor} {pid : Int} (told : Bool)
    (natural : 0 ≤ ipcSock) (fresh : ipcSock ∉ scout.openFds)
    (unknown : scout.subscriberProcs pid = none) :
    ∃ after, scout.subscribe ipcSock pid told = some after ∧ after.Bookkept ∧
      after.controlIpcSock = scout.controlIpcSock ∧
      ∀ fd ∈ scout.activeFds, fd ∈ after.activeFds := by
  have unused := kept.procs_of_fresh fresh
  unfold Scout.subscribe
  simp only [unknown, unused, Option.isSome_none, Bool.false_eq_true, ↓reduceIte]
  cases told with
  | true =>
      exact ⟨_, rfl, kept.add natural fresh rfl rfl rfl rfl, rfl,
        fun fd member => List.mem_insert_of_mem member⟩
  | false =>
      have reopened : (ipcSock :: scout.openFds).filter (· ≠ ipcSock) = scout.openFds := by
        rw [List.filter_cons_of_neg (by simp), List.filter_eq_self]
        intro fd member
        exact decide_eq_true fun same => fresh (same ▸ member)
      have erased : Function.update scout.subscriberProcs ipcSock none = scout.subscriberProcs := by
        rw [← unused, Function.update_eq_self]
      refine ⟨scout, ?_, kept, rfl, fun fd member => member⟩
      simp only [Bool.false_eq_true, ↓reduceIte, setProc, close, reopened, erased]

/-- The loop over the ready descriptors: it ends before it comes to the listening socket. -/
theorem readSubscribers {fds : List Descriptor} {rest : List Descriptor} {readyFds : Nat}
    (kept : scout.Bookkept) (distinct : rest.Nodup)
    (watched : ∀ fd ∈ rest, fd ∈ fds → fd ∈ scout.activeFds)
    (early : ∀ before later, rest = before ++ scout.controlIpcSock :: later →
      scout.controlIpcSock ∈ fds → readyFds ≤ (before.filter (· ∈ fds)).length) :
    ∃ after, Scout.readSubscribers fds rest readyFds scout = some after ∧ after.Bookkept := by
  induction rest generalizing scout readyFds with
  | nil => exact ⟨scout, rfl, kept⟩
  | cons fd rest ih =>
      obtain ⟨absent, distinctRest⟩ := List.nodup_cons.mp distinct
      unfold Scout.readSubscribers
      by_cases stop : readyFds = 0
      · rw [if_pos stop]
        exact ⟨scout, rfl, kept⟩
      rw [if_neg stop]
      by_cases isReady : fd ∈ fds
      · rw [if_pos isReady]
        have other : fd ≠ scout.controlIpcSock := by
          rintro rfl
          exact stop (Nat.le_zero.mp (early [] rest rfl isReady))
        obtain ⟨proc, found, removed⟩ := kept.remove (watched fd List.mem_cons_self isReady) other
        simp only [found]
        refine ih removed distinctRest (fun query member queryReady => ?_)
          fun before later shape listening => ?_
        · have active := watched query (List.mem_cons_of_mem _ member) queryReady
          exact List.mem_filter.mpr
            ⟨active, decide_eq_true fun same => absent (same ▸ member)⟩
        · have bound := early (fd :: before) later (by rw [shape]; rfl) listening
          rw [List.filter_cons_of_pos (by simpa using isReady), List.length_cons] at bound
          omega
      · rw [if_neg isReady]
        refine ih kept distinctRest (fun query member => watched query (List.mem_cons_of_mem _ member))
          fun before later shape listening => ?_
        have bound := early (fd :: before) later (by rw [shape]; rfl) listening
        rwa [List.filter_cons_of_neg (by simpa using isReady)] at bound

/-- Where no greater descriptor is ready than the listening socket, those that are left
after it was served all come before it. -/
theorem ready_before {ready before later : List Int} {sock maxfd : Int}
    (distinct : ready.Nodup) (natural : ∀ fd ∈ ready, 0 ≤ fd) (greatest : ∀ fd ∈ ready, fd ≤ sock)
    (listening : sock ∈ ready)
    (shape : (List.range (maxfd + 1).toNat).map Int.ofNat = before ++ sock :: later) :
    ready.length - 1 ≤ (before.filter (· ∈ ready)).length := by
  have ascending : ((List.range (maxfd + 1).toNat).map Int.ofNat).Pairwise (· < ·) := by
    rw [List.pairwise_map]
    exact List.pairwise_lt_range.imp fun less => Int.ofNat_lt.mpr less
  have listed : sock ∈ (List.range (maxfd + 1).toNat).map Int.ofNat := by
    rw [shape]
    exact List.mem_append_right _ List.mem_cons_self
  have covers : ready.erase sock ⊆ before.filter (· ∈ ready) := by
    intro fd member
    have isReady := List.mem_of_mem_erase member
    have other : fd ≠ sock := (List.Nodup.mem_erase_iff distinct).mp member |>.1
    have less : fd < sock := by
      have bound := greatest fd isReady
      omega
    have within : fd ∈ (List.range (maxfd + 1).toNat).map Int.ofNat := by
      obtain ⟨bound, inRange, named⟩ := List.mem_map.mp listed
      have limit := List.mem_range.mp inRange
      have cast : (bound : Int) = sock := named
      refine List.mem_map.mpr ⟨fd.toNat, List.mem_range.mpr ?_, Int.toNat_of_nonneg (natural fd isReady)⟩
      omega
    rw [shape] at within ascending
    refine List.mem_filter.mpr ⟨?_, decide_eq_true isReady⟩
    rcases List.mem_append.mp within with early | late
    · exact early
    · exfalso
      rcases List.mem_cons.mp late with same | after
      · exact other same
      · have order := (List.pairwise_cons.mp (List.pairwise_append.mp ascending).2.1).1 fd after
        omega
  calc ready.length - 1 = (ready.erase sock).length := (List.length_erase_of_mem listening).symm
    _ ≤ _ := (List.subperm_of_subset (distinct.erase sock) covers).length_le

/-- A turn in which everything is in order. -/
theorem turn (kept : scout.Bookkept) {ready : List Descriptor} {connection : ScoutConnection}
    (permitted : machine.permitted scout (.turn ready connection))
    (benign : scout.Benign (.turn ready connection)) :
    ∃ after, scout.turn ready connection = some after ∧ after.Bookkept := by
  obtain ⟨-, distinct, watched, accepted⟩ := permitted
  have selects : ¬∃ fd ∈ scout.activeFds, fd ∉ scout.openFds := by
    rintro ⟨fd, member, closed⟩
    exact closed (kept.opened member)
  have numbered : ∀ after : Scout, after.descriptors.Nodup := fun after =>
    List.nodup_range.map fun _ _ => Int.ofNat.inj
  unfold Scout.turn
  rw [if_neg selects]
  by_cases listening : scout.controlIpcSock ∈ ready
  · obtain ⟨served, greatest⟩ := benign listening
    have reads : ∀ next : Scout, next.Bookkept → next.controlIpcSock = scout.controlIpcSock →
        (∀ fd ∈ scout.activeFds, fd ∈ next.activeFds) → ∃ after,
          (if next.running then Scout.readSubscribers ready next.descriptors (ready.length - 1) next
            else some next) = some after ∧ after.Bookkept := by
      intro next nextKept sock still
      split_ifs
      · refine nextKept.readSubscribers (numbered next)
          (fun fd _ isReady => still fd (watched fd isReady)) fun before later shape _ => ?_
        rw [sock] at shape
        exact ready_before distinct (fun fd member => kept.natural fd (watched fd member)) greatest
          listening shape
      · exact ⟨next, rfl, nextKept⟩
    rw [if_pos listening]
    cases connection with
    | acceptFailed einval =>
        exact reads { scout with running := !einval }
          ⟨kept.listening, kept.watched, kept.keys, kept.natural⟩ rfl fun _ member => member
    | shortMessage ipcSock => exact served.elim
    | query ipcSock => exact reads scout kept rfl fun _ member => member
    | subscribe ipcSock pid told =>
        obtain ⟨natural, fresh⟩ := accepted ipcSock rfl
        obtain ⟨next, subscribing, nextKept, sock, still⟩ := kept.subscribe told natural fresh served
        simp only [acceptConnection, subscribing, Option.map_some, Option.bind_some]
        exact reads next nextKept sock still
  · rw [if_neg listening, Option.bind_some]
    split_ifs
    · exact kept.readSubscribers (numbered scout) (fun fd _ isReady => watched fd isReady)
        fun _ _ _ present => (listening present).elim
    · exact ⟨scout, rfl, kept⟩

/-- A notification that reaches every subscriber changes nothing. -/
theorem notify {failedProcs : List Descriptor}
    (reached : ∀ victim ∈ failedProcs, scout.subscriberProcs victim = none) :
    scout.notifyAllSubscribers failedProcs = scout := by
  unfold notifyAllSubscribers
  induction failedProcs with
  | nil => rfl
  | cons victim rest ih =>
      rw [List.foldl_cons, reached victim List.mem_cons_self]
      exact ih fun other member => reached other (List.mem_cons_of_mem _ member)

theorem step (kept : scout.Bookkept) {event : ScoutEvent} (permitted : machine.permitted scout event)
    (benign : scout.Benign event) : ∃ after, scout.step event = some after ∧ after.Bookkept := by
  cases event with
  | turn ready connection => exact kept.turn permitted benign
  | notify failedProcs =>
      refine ⟨scout, ?_, kept⟩
      rw [Scout.step, notify benign]

end Bookkept

variable {scout : Scout}

end Scout

end Libcmm
