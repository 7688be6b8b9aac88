import Libcmm.CsockMapping
import Libcmm.Lib.Transition

/-! # Connections come and go (`csocket_mapping.cpp`)

Threads set up and tear down interfaces, accept connections, make new ones for labels and remove
theirs when they exit. Each does so in sections under a lock, and other threads may run between
two of them. A thread is the list of the sections it still has to run; the objects its local
variables point to stay where they are. The set of connections is one of pointers, and only the
search in `make_new_csocket` keeps it from holding two connections for one pair of addresses.
-/

namespace Libcmm

open Lib

/-- The sections under a lock of the functions of `CSockMapping`. -/
inductive CsockCall where
  /-- `setup`, up to the end of its `for_each` -/
  | setup (iface : NetInterface) (isLocal makeConnection needDataCheck : Bool)
  /-- one connection that `setup` found, under its `csock_lock` -/
  | update (csock : Nat) (iface : NetInterface) (isLocal : Bool)
  /-- one turn of the loop of `setup` over the remote interfaces -/
  | connect (pair : IfacePair) (needDataCheck : Bool)
  | makeNewCsocket (pair : IfacePair) (acceptedSock : Int)
  /-- `teardown`, up to the end of its `for_each` -/
  | teardown (iface : NetInterface) (isLocal : Bool)
  /-- the loop of `teardown` over what it found -/
  | eraseVictims (victims : List Nat)
  /-- `add_connection`, up to the setup of an unknown local interface -/
  | addConnection (sock : Int) (localAddr : UInt32) (remoteIface : NetInterface)
  /-- `add_connection` from the search for the remote interface on -/
  | addRemote (sock : Int) (localIface remoteIface : NetInterface)
  /-- `new_csock_with_labels`, its search for a connection -/
  | newCsockWithLabels (sendLabel : Nat)
  /-- `new_csock_with_labels`, its search for a pair of interfaces -/
  | newIfacePair (sendLabel : Nat)
  | removeCsock (csock : Nat)
  deriving DecidableEq

namespace CsockCall

/-- The connections that the local variables of a section point to. -/
def holds : CsockCall → List Nat
  | update csock _ _ | removeCsock csock => [csock]
  | eraseVictims victims => victims
  | _ => []

/-- The sections a function begins with. -/
def isEntry : CsockCall → Bool
  | setup _ _ _ _ | makeNewCsocket _ _ | teardown _ _ | addConnection _ _ _
  | newCsockWithLabels _ | removeCsock _ => true
  | _ => false

end CsockCall

/-- What a section finds outside of the mapping: the place of a new `CSocket`, if its constructor
does not throw, the estimates, what was in an interface that was not initialised, and the flags
with which the multisocket sets up an interface. -/
structure Surroundings where
  created : Option Nat
  estimate : IfacePair → Estimates
  uninitialised : NetInterface
  makeConnection : Bool
  needDataCheck : Bool

namespace CsockMapping

variable {σ : Type} (platform : Platform) (impl : NetworkChooserImpl σ)
  (estimate : IfacePair → Estimates) (mapping : CsockMapping)

/-- The address of the local or of the remote interface of a connection. -/
def address (csock : Nat) (isLocal : Bool) : UInt32 :=
  if isLocal then (mapping.ifacePair csock).1.ipAddr else (mapping.ifacePair csock).2.ipAddr

/-- `get_matching_csocks`, for one interface. -/
def getMatchingCsocks (iface : NetInterface) (isLocal : Bool) : List Nat :=
  mapping.availableCsocks.toList.filter fun csock => iface.ipAddr == mapping.address csock isLocal

/-- `CSockMapping::csock_by_ifaces`. -/
def csockByIfaces (pair : IfacePair) : Option Nat :=
  mapping.availableCsocks.toList.find? fun csock =>
    addresses (mapping.ifacePair csock) == addresses pair

/-- New interfaces of a connection that `setup` has found. -/
def replaceIface (csock : Nat) (iface : NetInterface) (isLocal : Bool) : CsockMapping :=
  let before := mapping.csocks csock
  let after := { before with
    ifacePair := if isLocal then (iface, before.ifacePair.2) else (before.ifacePair.1, iface) }
  { mapping with csocks := Function.update mapping.csocks csock after }

/-- `available_csocks.erase`. -/
def erase (csock : Nat) : CsockMapping :=
  { mapping with availableCsocks := mapping.availableCsocks.erase csock }

/-- `CSocket::create` and `available_csocks.insert`. -/
def create (pair : IfacePair) : Option Nat → CsockMapping × Option Nat
  | none => (mapping, none)
  | some csock =>
      ({ mapping with
          csocks := Function.update mapping.csocks csock ⟨pair, false⟩
          availableCsocks := mapping.availableCsocks.insert csock }, some csock)

/-- `CSockMapping::make_new_csocket`. -/
def makeNewCsocket (pair : IfacePair) (acceptedSock : Int) (created : Option Nat) :
    CsockMapping × Option Nat :=
  match mapping.csockByIfaces pair with
  | some csock =>
      -- the accepting side ditches its old connection and uses the new one
      if 0 < acceptedSock then (mapping.erase csock).create pair created
      else (mapping, some csock)
  | none => mapping.create pair created

/-- `CSockMapping::csock_matches_internal`. -/
def csockMatchesInternal (chooser : σ) (csock : Nat) (sendLabel : Nat) : Bool × σ :=
  if sendLabel = 0 then (true, chooser)
  else
    match mapping.getIfacePairLockedInternal platform impl estimate chooser sendLabel with
    | (none, chooser) => (false, chooser)
    | (some pair, chooser) => (addresses pair == addresses (mapping.ifacePair csock), chooser)

/-- `CSockMapping::csock_with_labels`, from a connection of the set on. -/
def csockWithLabels (chooser : σ) (sendLabel : Nat) : List Nat → Option Nat × σ
  | [] => (none, chooser)
  | csock :: rest =>
      match mapping.csockMatchesInternal platform impl estimate chooser csock sendLabel with
      | (true, chooser) => (some csock, chooser)
      | (false, chooser) => csockWithLabels chooser sendLabel rest

/-- An interface by its address, as `get_iface_by_addr` finds it. -/
def ifaceByAddr (ifaces : List NetInterface) (addr : UInt32) : Option NetInterface :=
  ifaces.find? fun iface => addr == iface.ipAddr

/-- A section: the mapping and the chooser afterwards, and the sections that follow in its
place. -/
def perform (around : Surroundings) (chooser : σ) : CsockCall → CsockMapping × σ × List CsockCall
  | .setup iface isLocal makeConnection needDataCheck =>
      (mapping, chooser,
        (mapping.getMatchingCsocks iface isLocal).map (fun csock => .update csock iface isLocal) ++
        -- only the connecting side makes new connections
        if !makeConnection || mapping.acceptingSide then []
        else if isLocal then
          mapping.remoteIfaces.map fun remote => .connect (iface, remote) needDataCheck
        else [])
  | .update csock iface isLocal => (mapping.replaceIface csock iface isLocal, chooser, [])
  | .connect pair needDataCheck =>
      (mapping, chooser,
        if needDataCheck || (mapping.csockByIfaces pair).isNone then [.makeNewCsocket pair (-1)]
        else [])
  | .makeNewCsocket pair acceptedSock =>
      ((mapping.makeNewCsocket pair acceptedSock around.created).1, chooser, [])
  | .teardown iface isLocal =>
      (mapping, chooser, [.eraseVictims (mapping.getMatchingCsocks iface isLocal)])
  | .eraseVictims victims => (victims.foldr (fun csock mapping => mapping.erase csock) mapping,
      chooser, [])
  | .addConnection sock localAddr remoteIface =>
      match ifaceByAddr mapping.localIfaces localAddr with
      | some localIface => (mapping, chooser, [.addRemote sock localIface remoteIface])
      | none =>
          let localIface := { around.uninitialised with ipAddr := localAddr }
          (mapping, chooser, [.setup localIface true around.makeConnection around.needDataCheck,
            .addRemote sock localIface remoteIface])
  | .addRemote sock localIface remoteIface =>
      match ifaceByAddr mapping.remoteIfaces remoteIface.ipAddr with
      | some _ => (mapping, chooser, [.makeNewCsocket (localIface, remoteIface) sock])
      | none =>
          (mapping, chooser, [.setup remoteIface false around.makeConnection around.needDataCheck,
            .makeNewCsocket (localIface, remoteIface) sock])
  | .newCsockWithLabels sendLabel =>
      match mapping.csockWithLabels platform impl around.estimate chooser sendLabel
          mapping.availableCsocks.toList with
      | (some _, chooser) => (mapping, chooser, [])
      | (none, chooser) => (mapping, chooser, [.newIfacePair sendLabel])
  | .newIfacePair sendLabel =>
      match mapping.getIfacePairLockedInternal platform impl around.estimate chooser sendLabel with
      | (none, chooser) => (mapping, chooser, [])
      | (some pair, chooser) => (mapping, chooser, [.makeNewCsocket pair (-1)])
  | .removeCsock csock => (mapping.erase csock, chooser, [])

end CsockMapping

/-- What the rest of the library and the network do to the mapping. -/
inductive CsockEvent where
  /-- a thread enters one of the functions -/
  | enter (call : CsockCall)
  /-- a thread runs its next section -/
  | run (thread : Nat) (around : Surroundings)
  /-- a connection is up, or is not -/
  | connected (csock : Nat) (up : Bool)
  /-- the multisocket has other interfaces, or takes a side -/
  | multisocket (localIfaces remoteIfaces : List NetInterface) (acceptingSide : Bool)

/-- The mapping, its chooser, and the sections the threads still have to run. -/
structure CsockRun (σ : Type) where
  mapping : CsockMapping
  chooser : σ
  threads : List (List CsockCall)

namespace CsockRun

variable {σ : Type} (platform : Platform) (impl : NetworkChooserImpl σ)

/-- Nothing points to a place. -/
def Unused (run : CsockRun σ) (csock : Nat) : Prop :=
  csock ∉ run.mapping.availableCsocks ∧
    ∀ thread ∈ run.threads, ∀ call ∈ thread, csock ∉ call.holds

instance (run : CsockRun σ) (csock : Nat) : Decidable (run.Unused csock) :=
  inferInstanceAs (Decidable (_ ∧ _))

/-- A thread begins at the beginning of a function, and a new object is in a new place. -/
def Permitted (run : CsockRun σ) : CsockEvent → Prop
  | .enter call => call.isEntry = true
  | .run _ around => ∀ csock ∈ around.created, run.Unused csock
  | _ => True

instance (run : CsockRun σ) : ∀ event, Decidable (run.Permitted event)
  | .enter call => inferInstanceAs (Decidable (call.isEntry = true))
  | .run _ around => inferInstanceAs (Decidable (∀ csock ∈ around.created, run.Unused csock))
  | .connected _ _ | .multisocket _ _ _ => inferInstanceAs (Decidable True)

/-- One event. A thread that has nothing to run has left. -/
def step (run : CsockRun σ) : CsockEvent → Option (CsockRun σ)
  | .enter call => some { run with threads := run.threads ++ [[call]] }
  | .run thread around =>
      match run.threads[thread]? with
      | some (call :: rest) =>
          let (mapping, chooser, next) :=
            run.mapping.perform platform impl around run.chooser call
          some ⟨mapping, chooser, run.threads.set thread (next ++ rest)⟩
      | _ => none
  | .connected csock up =>
      let after := { run.mapping.csocks csock with connected := up }
      let csocks := Function.update run.mapping.csocks csock after
      some { run with mapping := { run.mapping with csocks } }
  | .multisocket localIfaces remoteIfaces acceptingSide =>
      some { run with mapping := { run.mapping with localIfaces, remoteIfaces, acceptingSide } }

/-- The runs of a mapping, from no connections on. -/
def machine : Machine (CsockRun σ) CsockEvent where
  initial run := run.mapping.availableCsocks = ∅ ∧ run.threads = []
  permitted := Permitted
  step := step platform impl

instance (run : CsockRun σ) (event : CsockEvent) :
    Decidable ((machine platform impl).permitted run event) :=
  inferInstanceAs (Decidable (run.Permitted event))

end CsockRun

/-! ### One section -/

namespace CsockMapping

variable {σ : Type} {platform : Platform} {impl : NetworkChooserImpl σ} {mapping after : CsockMapping}
  {around : Surroundings} {chooser : σ} {call : CsockCall} {pair : IfacePair} {csock : Nat}

/-- An update does not change the address of what it updates. -/
def KeepsAddress (mapping : CsockMapping) : CsockCall → Prop
  | .update csock iface isLocal => mapping.address csock isLocal = iface.ipAddr
  | _ => True

/-- The connections of one mapping are connections of another, between the same addresses. -/
structure Fewer (after before : CsockMapping) : Prop where
  available : ∀ csock ∈ after.availableCsocks, csock ∈ before.availableCsocks
  same : ∀ csock, addresses (after.ifacePair csock) = addresses (before.ifacePair csock)

theorem Fewer.refl (mapping : CsockMapping) : Fewer mapping mapping :=
  ⟨fun _ => id, fun _ => rfl⟩

theorem Fewer.onePerPair (fewer : Fewer after mapping) (onePerPair : mapping.OnePerPair) :
    after.OnePerPair := by
  intro first firstMember second secondMember same
  rw [fewer.same, fewer.same] at same
  exact onePerPair first (fewer.available first firstMember) second
    (fewer.available second secondMember) same

theorem fewer_erase (mapping : CsockMapping) (csock : Nat) : Fewer (mapping.erase csock) mapping :=
  ⟨fun _ member => (OrderedSet.mem_erase.mp member).1, fun _ => rfl⟩

theorem fewer_eraseVictims (mapping : CsockMapping) (victims : List Nat) :
    Fewer (victims.foldr (fun csock mapping => mapping.erase csock) mapping) mapping := by
  induction victims with
  | nil => exact .refl mapping
  | cons victim rest ih =>
      have erased := fewer_erase (rest.foldr (fun csock mapping => mapping.erase csock) mapping) victim
      exact ⟨fun csock member => ih.available csock (erased.available csock member),
        fun csock => (erased.same csock).trans (ih.same csock)⟩

/-- An update in place leaves the addresses as they were. -/
theorem fewer_replaceIface {iface : NetInterface} {isLocal : Bool}
    (keeps : mapping.address csock isLocal = iface.ipAddr) :
    Fewer (mapping.replaceIface csock iface isLocal) mapping := by
  refine ⟨fun _ => id, fun other => ?_⟩
  dsimp only [replaceIface, ifacePair]
  by_cases same : other = csock
  · subst same
    rw [Function.update_self]
    cases isLocal with
    | true => exact congrArg (fun addr => (addr, _)) keeps.symm
    | false => exact congrArg (fun addr => (_, addr)) keeps.symm
  · rw [Function.update_of_ne same]

theorem csockByIfaces_eq_none_iff : mapping.csockByIfaces pair = none ↔
    ∀ csock ∈ mapping.availableCsocks, addresses (mapping.ifacePair csock) ≠ addresses pair := by
  unfold csockByIfaces
  simp only [List.find?_eq_none, beq_iff_eq, OrderedSet.mem_toList, ne_eq]

theorem of_csockByIfaces (found : mapping.csockByIfaces pair = some csock) :
    csock ∈ mapping.availableCsocks ∧ addresses (mapping.ifacePair csock) = addresses pair :=
  ⟨List.mem_of_find?_eq_some found, beq_iff_eq.mp
    (List.find?_some (p := fun csock => addresses (mapping.ifacePair csock) == addresses pair)
      found)⟩

/-- A new connection for a pair that has none. -/
theorem create_onePerPair {created : Option Nat} (onePerPair : mapping.OnePerPair)
    (free : ∀ csock ∈ mapping.availableCsocks, addresses (mapping.ifacePair csock) ≠ addresses pair)
    (unused : ∀ csock ∈ created, csock ∉ mapping.availableCsocks) :
    (mapping.create pair created).1.OnePerPair := by
  cases created with
  | none => exact onePerPair
  | some csock =>
      have here : (mapping.create pair (some csock)).1.ifacePair csock = pair :=
        congrArg CSocket.ifacePair (Function.update_self csock _ mapping.csocks)
      have others : ∀ other ∈ mapping.availableCsocks,
          (mapping.create pair (some csock)).1.ifacePair other = mapping.ifacePair other := by
        intro other member
        have apart : other ≠ csock := fun same => unused csock rfl (same ▸ member)
        exact congrArg CSocket.ifacePair (Function.update_of_ne apart _ mapping.csocks)
      intro first firstMember second secondMember same
      rcases OrderedSet.mem_insert.mp firstMember with rfl | firstOld
      · rcases OrderedSet.mem_insert.mp secondMember with rfl | secondOld
        · rfl
        · rw [here, others second secondOld] at same
          exact absurd same.symm (free second secondOld)
      · rcases OrderedSet.mem_insert.mp secondMember with rfl | secondOld
        · rw [here, others first firstOld] at same
          exact absurd same (free first firstOld)
        · rw [others first firstOld, others second secondOld] at same
          exact onePerPair first firstOld second secondOld same

theorem create_ifacePair {created : Option Nat} {other : Nat} (apart : created ≠ some other) :
    (mapping.create pair created).1.ifacePair other = mapping.ifacePair other := by
  cases created with
  | none => rfl
  | some csock =>
      have distinct : other ≠ csock := fun same => apart (congrArg some same.symm)
      exact congrArg CSocket.ifacePair (Function.update_of_ne distinct _ mapping.csocks)

/-- A new connection only for a pair that has none, or whose connection is erased. -/
theorem makeNewCsocket_onePerPair {created : Option Nat} {acceptedSock : Int}
    (onePerPair : mapping.OnePerPair)
    (unused : ∀ csock ∈ created, csock ∉ mapping.availableCsocks) :
    (mapping.makeNewCsocket pair acceptedSock created).1.OnePerPair := by
  unfold makeNewCsocket
  rcases found : mapping.csockByIfaces pair with _ | csock
  · exact create_onePerPair onePerPair (csockByIfaces_eq_none_iff.mp found) unused
  · obtain ⟨member, same⟩ := of_csockByIfaces found
    dsimp only
    split_ifs with accepted
    · apply create_onePerPair ((fewer_erase mapping csock).onePerPair onePerPair)
      · intro other remaining equal
        obtain ⟨otherMember, apart⟩ := OrderedSet.mem_erase.mp remaining
        exact apart (onePerPair other otherMember csock member (equal.trans same.symm))
      · exact fun new isNew remaining => unused new isNew (OrderedSet.mem_erase.mp remaining).1
    · exact onePerPair

theorem makeNewCsocket_ifacePair {created : Option Nat} {acceptedSock : Int} {other : Nat}
    (apart : created ≠ some other) :
    (mapping.makeNewCsocket pair acceptedSock created).1.ifacePair other =
      mapping.ifacePair other := by
  unfold makeNewCsocket
  rcases mapping.csockByIfaces pair with _ | csock
  · exact create_ifacePair apart
  · dsimp only
    split_ifs with accepted
    · exact create_ifacePair apart
    · rfl

/-- What a section leaves as it was. -/
structure Performed (mapping after : CsockMapping) (created : Option Nat)
    (next : List CsockCall) : Prop where
  onePerPair : after.OnePerPair
  same : ∀ csock, created ≠ some csock →
    addresses (after.ifacePair csock) = addresses (mapping.ifacePair csock)
  keepsAddress : ∀ call ∈ next, after.KeepsAddress call

theorem Fewer.performed {next : List CsockCall} (fewer : Fewer after mapping)
    (onePerPair : mapping.OnePerPair) (created : Option Nat)
    (keepsAddress : ∀ call ∈ next, after.KeepsAddress call) :
    Performed mapping after created next :=
  ⟨fewer.onePerPair onePerPair, fun csock _ => fewer.same csock, keepsAddress⟩

/-- What each section does to the connections. -/
theorem perform_performed (onePerPair : mapping.OnePerPair) (keeps : mapping.KeepsAddress call)
    (unused : ∀ csock ∈ around.created, csock ∉ mapping.availableCsocks) :
    Performed mapping (mapping.perform platform impl around chooser call).1 around.created
      (mapping.perform platform impl around chooser call).2.2 := by
  have unchanged : ∀ next : List CsockCall, (∀ other ∈ next, mapping.KeepsAddress other) →
      Performed mapping mapping around.created next :=
    fun _ => (Fewer.refl mapping).performed onePerPair around.created
  cases call with
  | setup iface isLocal makeConnection needDataCheck =>
      apply unchanged
      intro other member
      rcases List.mem_append.mp member with update | connect
      · obtain ⟨csock, found, rfl⟩ := List.mem_map.mp update
        exact (beq_iff_eq.mp (List.mem_filter.mp found).2).symm
      · split_ifs at connect
        · exact (List.not_mem_nil connect).elim
        · obtain ⟨remote, -, rfl⟩ := List.mem_map.mp connect
          trivial
        · exact (List.not_mem_nil connect).elim
  | update csock iface isLocal =>
      exact (fewer_replaceIface keeps).performed onePerPair _ (List.forall_mem_nil _)
  | connect pair needDataCheck =>
      apply unchanged
      intro other member
      dsimp only [perform] at member
      split_ifs at member
      · rw [List.mem_singleton.mp member]
        trivial
      · exact (List.not_mem_nil member).elim
  | makeNewCsocket pair acceptedSock =>
      exact ⟨makeNewCsocket_onePerPair onePerPair unused,
        fun csock apart => congrArg addresses (makeNewCsocket_ifacePair apart),
        List.forall_mem_nil _⟩
  | teardown iface isLocal => exact unchanged _ (List.forall_mem_singleton.mpr trivial)
  | eraseVictims victims =>
      exact (fewer_eraseVictims mapping victims).performed onePerPair _ (List.forall_mem_nil _)
  | addConnection sock localAddr remoteIface =>
      dsimp only [perform]
      split
      · exact unchanged _ (List.forall_mem_singleton.mpr trivial)
      · exact unchanged _ (List.forall_mem_cons.mpr ⟨trivial, List.forall_mem_singleton.mpr trivial⟩)
  | addRemote sock localIface remoteIface =>
      dsimp only [perform]
      split
      · exact unchanged _ (List.forall_mem_singleton.mpr trivial)
      · exact unchanged _ (List.forall_mem_cons.mpr ⟨trivial, List.forall_mem_singleton.mpr trivial⟩)
  | newCsockWithLabels sendLabel =>
      dsimp only [perform]
      split
      · exact unchanged _ (List.forall_mem_nil _)
      · exact unchanged _ (List.forall_mem_singleton.mpr trivial)
  | newIfacePair sendLabel =>
      dsimp only [perform]
      split
      · exact unchanged _ (List.forall_mem_nil _)
      · exact unchanged _ (List.forall_mem_singleton.mpr trivial)
  | removeCsock csock =>
      exact (fewer_erase mapping csock).performed onePerPair _ (List.forall_mem_nil _)

/-- Addresses that stay keep what an update relies on. -/
theorem KeepsAddress.of_same (keeps : mapping.KeepsAddress call)
    (same : ∀ csock ∈ call.holds,
      addresses (after.ifacePair csock) = addresses (mapping.ifacePair csock)) :
    after.KeepsAddress call := by
  cases call with
  | update csock iface isLocal =>
      obtain ⟨first, second⟩ := Prod.mk.inj (same csock List.mem_cons_self)
      change after.address csock isLocal = iface.ipAddr
      rw [← show mapping.address csock isLocal = iface.ipAddr from keeps]
      cases isLocal with
      | true => exact first
      | false => exact second
  | _ => trivial

end CsockMapping

/-! ### Runs -/

namespace CsockRun

open CsockMapping

variable {σ : Type} {platform : Platform} {impl : NetworkChooserImpl σ} {run : CsockRun σ}

/-- No two connections share a pair, and no update in progress changes an address. -/
structure OneEach (run : CsockRun σ) : Prop where
  onePerPair : run.mapping.OnePerPair
  keepsAddress : ∀ thread ∈ run.threads, ∀ call ∈ thread, run.mapping.KeepsAddress call

theorem OneEach.enter (each : OneEach run) {call : CsockCall} (entry : call.isEntry = true) :
    OneEach { run with threads := run.threads ++ [[call]] } := by
  refine ⟨each.onePerPair, fun thread member => ?_⟩
  rcases List.mem_append.mp member with old | new
  · exact each.keepsAddress thread old
  · rw [List.mem_singleton.mp new]
    intro first listed
    rw [List.mem_singleton.mp listed]
    cases call with
    | update csock iface isLocal => exact Bool.noConfusion entry
    | _ => trivial

theorem OneEach.runSection (each : OneEach run) {thread : Nat} {around : Surroundings}
    {call : CsockCall} {rest : List CsockCall} (next : run.threads[thread]? = some (call :: rest))
    (unused : ∀ csock ∈ around.created, run.Unused csock)
    {mapping : CsockMapping} {chooser : σ} {calls : List CsockCall}
    (performed : run.mapping.perform platform impl around run.chooser call =
      (mapping, chooser, calls)) :
    OneEach ⟨mapping, chooser, run.threads.set thread (calls ++ rest)⟩ := by
  have own : call :: rest ∈ run.threads := List.mem_of_getElem? next
  have effect : Performed run.mapping
      (run.mapping.perform platform impl around run.chooser call).1 around.created
      (run.mapping.perform platform impl around run.chooser call).2.2 := perform_performed
    each.onePerPair (each.keepsAddress _ own call List.mem_cons_self)
    (fun csock isNew => (unused csock isNew).1)
  rw [performed] at effect
  have stays : ∀ other ∈ run.threads, ∀ call ∈ other, mapping.KeepsAddress call := by
    intro other member call listed
    apply (each.keepsAddress other member call listed).of_same
    intro csock held
    exact effect.same csock fun isNew => (unused csock isNew).2 other member call listed held
  refine ⟨effect.onePerPair, fun other member => ?_⟩
  rcases List.mem_or_eq_of_mem_set member with old | rfl
  · exact stays other old
  · intro call listed
    rcases List.mem_append.mp listed with new | left
    · exact effect.keepsAddress call new
    · exact stays _ own call (List.mem_cons_of_mem _ left)

/-- The interfaces of no connection change. -/
theorem OneEach.of_same (each : OneEach run) {mapping : CsockMapping}
    (same : mapping.availableCsocks = run.mapping.availableCsocks ∧
      ∀ csock, mapping.ifacePair csock = run.mapping.ifacePair csock) :
    OneEach { run with mapping := mapping } := by
  have fewer : Fewer mapping run.mapping :=
    ⟨fun csock member => same.1 ▸ member, fun csock => congrArg addresses (same.2 csock)⟩
  exact ⟨fewer.onePerPair each.onePerPair, fun thread member call listed =>
    (each.keepsAddress thread member call listed).of_same fun csock _ => fewer.same csock⟩

theorem oneEach_of_reachable (reached : (machine platform impl).Reachable run) : OneEach run := by
  apply reached.induct
  · rintro first ⟨none', idle⟩
    constructor
    · intro csock member
      rw [none'] at member
      exact (OrderedSet.not_mem_empty csock member).elim
    · rw [idle]
      exact List.forall_mem_nil _
  · intro before next event _ each permitted moved
    cases event with
    | enter call =>
        cases moved
        exact each.enter permitted
    | run thread around =>
        have stepped : before.step platform impl (.run thread around) = some next := moved
        dsimp only [step] at stepped
        split at stepped
        · rename_i call rest found
          cases stepped
          exact each.runSection found permitted rfl
        · cases stepped
    | connected csock up =>
        cases moved
        apply each.of_same
        refine ⟨rfl, fun other => ?_⟩
        dsimp only [ifacePair]
        by_cases same : other = csock
        · subst same
          rw [Function.update_self]
        · rw [Function.update_of_ne same]
    | multisocket localIfaces remoteIfaces acceptingSide =>
        cases moved
        exact each.of_same ⟨rfl, fun _ => rfl⟩

/-- In every reachable state: no two connections are between the same addresses; without an
accepted socket `make_new_csocket` returns the connection of the pair where there is one, and
changes nothing; and `connected_csock_with_labels` meets no pair twice. -/
theorem one_csocket_per_pair (reached : (machine platform impl).Reachable run) :
    run.mapping.OnePerPair ∧
    (∀ csock ∈ run.mapping.availableCsocks, ∀ pair acceptedSock created,
      addresses (run.mapping.ifacePair csock) = addresses pair → acceptedSock ≤ 0 →
        run.mapping.makeNewCsocket pair acceptedSock created = (run.mapping, some csock)) ∧
    ∀ estimate chooser labels,
      run.mapping.connectedCsockWithLabels platform impl estimate chooser labels ≠
        .error .keyAbsent := by
  have onePerPair := (oneEach_of_reachable reached).onePerPair
  refine ⟨onePerPair, ?_, fun _ _ _ => onePerPair.keyAbsent⟩
  intro csock member pair acceptedSock created same notAccepted
  unfold makeNewCsocket
  rcases found : run.mapping.csockByIfaces pair with _ | other
  · exact absurd same (csockByIfaces_eq_none_iff.mp found csock member)
  · obtain ⟨otherMember, otherSame⟩ := of_csockByIfaces found
    rw [onePerPair other otherMember csock member (otherSame.trans same.symm)]
    exact if_neg (not_lt.mpr notAccepted)

/-- No connections yet. -/
def idle : CsockRun PreferredNetwork where
  mapping := ⟨fun _ => ⟨LabelMatcher.wifiOffer.1, false⟩, ∅, [], [], false⟩
  chooser := ⟨1, false, LabelMatcher.wifiOffer.1⟩
  threads := []

/-- A new object in this place. -/
def creates (csock : Nat) : Surroundings where
  created := some csock
  estimate _ := ⟨none, none⟩
  uninitialised := LabelMatcher.wifiOffer.1.1
  makeConnection := true
  needDataCheck := false

/-- Two threads make a connection for one pair, and then one that was accepted replaces it while
an interface is set up. -/
def replaced : List CsockEvent :=
  let pair := LabelMatcher.wifiOffer.1
  [.enter (.makeNewCsocket pair (-1)), .enter (.makeNewCsocket pair (-1)),
    .run 0 (creates 3), .run 1 (creates 4), .enter (.setup pair.1 true true true),
    .run 2 (creates 5), .enter (.makeNewCsocket pair 9), .run 3 (creates 5), .run 2 (creates 6)]

theorem one_csocket_per_pair_replaced : ∃ run : CsockRun PreferredNetwork,
    (machine .lp64 PreferredNetwork.impl).Reachable run ∧
    run.mapping.availableCsocks.toList = [5] ∧ run.mapping.OnePerPair ∧
    run.mapping.makeNewCsocket LabelMatcher.wifiOffer.1 (-1) (some 7) = (run.mapping, some 5) := by
  obtain ⟨run, ran, available, pair⟩ : ∃ run : CsockRun PreferredNetwork,
      (machine .lp64 PreferredNetwork.impl).run idle replaced = some run ∧
      run.mapping.availableCsocks.toList = [5] ∧
      run.mapping.ifacePair 5 = LabelMatcher.wifiOffer.1 := ⟨_, rfl, rfl, rfl⟩
  have start : (machine .lp64 PreferredNetwork.impl).initial idle := ⟨rfl, rfl⟩
  have reached := Machine.Reachable.run (.initial start) ran
  obtain ⟨onePerPair, existing, -⟩ := one_csocket_per_pair reached
  refine ⟨run, reached, available, onePerPair, existing 5 ?_ _ (-1) (some 7) ?_ (by decide)⟩
  · change 5 ∈ run.mapping.availableCsocks.toList
    rw [available]
    exact List.mem_cons_self
  · rw [pair]

end CsockRun

end Libcmm
