import Libcmm.Bootstrapping
import Libcmm.CsockMapping
import Libcmm.Lib.Simulation
import Libcmm.Scout

/-! # Interface updates (`libcmm_scout.cpp`, `libcmm_ipc.cpp`, `cmm_socket_impl.cpp`)

The scout keeps the interfaces of the host in `net_interfaces`. It tells a process that
subscribes about all of them, and later about each change. The process keeps what it was told
in `CMMSocketImpl::ifaces`, from which a multisocket copies its local interfaces when it is
bootstrapped, and passes each message on to its multisockets. They announce the changes to
their peers.

The scout changes `net_interfaces` under a lock and writes the messages later, one by one.
Meanwhile its other thread may accept a subscription. A process that is being greeted is not
reached by other messages, because its socket is not entered yet.

A csocket may be accepted on an interface that the process has just been told is down; the process
then takes the interface for one that is up. A null bootstrapper that is followed when an interface
goes down traps (`none`): a multisocket has none before it is bootstrapped.
-/

namespace Libcmm

open Lib

/-- `struct cmm_msg` about an interface: `CMM_MSG_IFACE_LABELS`, or `CMM_MSG_IFACE_DOWN`. -/
structure IfaceUpdate where
  iface : NetInterface
  down : Bool
  deriving DecidableEq

/-- A process at the scout. While it is greeted the rest of the copy that `init_subscriber`
made is left. -/
inductive Subscription where
  | unknown
  | greeting (left : List NetInterface)
  | active
  | ended
  deriving DecidableEq

/-- The process is being greeted. -/
def Subscription.isGreeting : Subscription → Bool
  | .greeting _ => true
  | _ => false

/-- The local interfaces of a multisocket, those to be announced, and whether its bootstrapper is
not null. `hands` is what its senders have taken of the announcements. `elsewhere` records that its
peer is not on the loopback interface. -/
structure SocketIfaces where
  localIfaces : NetInterfaceSet
  changedLocalIfaces : NetInterfaceSet
  downLocalIfaces : NetInterfaceSet
  bootstrapper : Bool
  hands : List IfaceUpdate
  elsewhere : Bool

/-- `cmm_sock_hash`. The multisockets are at some of the listed descriptors. -/
structure SocketHash where
  table : Descriptor → Option SocketIfaces
  socks : List Descriptor
  listed : ∀ sock, (table sock).isSome = true → sock ∈ socks

namespace SocketHash

instance : CoeFun SocketHash fun _ => Descriptor → Option SocketIfaces := ⟨table⟩

/-- There are no multisockets. -/
def empty : SocketHash := ⟨fun _ => none, [], nofun⟩

/-- A multisocket is entered, replaced or removed. -/
def set (hash : SocketHash) (sock : Descriptor) (sk : Option SocketIfaces) : SocketHash where
  table := Function.update hash sock sk
  socks := sock :: hash.socks
  listed other held := by
    by_cases same : other = sock
    · exact same ▸ List.mem_cons_self
    · rw [Function.update_of_ne same] at held
      exact List.mem_cons_of_mem _ (hash.listed other held)

/-- A loop over the multisockets, which may trap at each. -/
def forEach (change : SocketIfaces → Option SocketIfaces) (hash : SocketHash) : Option SocketHash :=
  if hash.socks.all fun sock => (hash sock).all fun sk => (change sk).isSome then
    some
      { table := fun sock => (hash sock).bind change
        socks := hash.socks
        listed := fun sock held =>
          hash.listed sock (Option.isSome_of_isSome_bind held) }
  else none

/-- The loop gets to its end exactly if it traps at none. -/
theorem forEach_isSome_iff {change : SocketIfaces → Option SocketIfaces} {hash : SocketHash} :
    (hash.forEach change).isSome ↔
      ∀ sock sk, hash sock = some sk → (change sk).isSome = true := by
  unfold forEach
  split_ifs with all
  · refine iff_of_true rfl fun sock sk held => ?_
    have here := List.all_eq_true.mp all sock (hash.listed sock (held ▸ rfl))
    rwa [held] at here
  · refine iff_of_false Bool.false_ne_true fun each => all (List.all_eq_true.mpr fun sock _ => ?_)
    cases held : hash sock with
    | none => rfl
    | some sk => exact each sock sk held

theorem forEach_eq_some {change : SocketIfaces → Option SocketIfaces} {hash after : SocketHash}
    (changed : hash.forEach change = some after) (sock : Descriptor) :
    after sock = (hash sock).bind change := by
  unfold forEach at changed
  split_ifs at changed
  cases changed
  rfl

/-- Each multisocket is changed. -/
theorem forEach_found {change : SocketIfaces → Option SocketIfaces} {hash after : SocketHash}
    (changed : hash.forEach change = some after) {sock : Descriptor} {sk : SocketIfaces}
    (found : hash sock = some sk) : ∃ next, change sk = some next ∧ after sock = some next := by
  have all : (hash.forEach change).isSome := changed ▸ rfl
  obtain ⟨next, made⟩ := Option.isSome_iff_exists.mp (forEach_isSome_iff.mp all sock sk found)
  exact ⟨next, made, by rw [forEach_eq_some changed, found, Option.bind_some, made]⟩

end SocketHash

/-- The scout, the messages to one process, and the process. `batch` is what
`notify_all_subscribers` has still to write to it. -/
structure Updates where
  netInterfaces : NetInterfaceSet
  batch : List IfaceUpdate
  subscription : Subscription
  pending : List IfaceUpdate
  ifaces : NetInterfaceSet
  cmmSockHash : SocketHash

/-- A step of the scout, of the process, or of a sender of a multisocket. -/
inductive UpdateEvent where
  | update (changed down : List NetInterface)
  | notify (written : Bool)
  | subscribe
  | greet (written : Bool)
  | watch
  /-- the process or the scout ends -/
  | lose
  | receive
  | addConnection (sock : Descriptor) (iface : NetInterface)
  | create (sock : Descriptor)
  | bootstrap (sock : Descriptor) (address : UInt32)
  | newBootstrapper (sock : Descriptor)
  | close (sock : Descriptor)
  | pop (sock : Descriptor) (down : Bool)
  | write (sock : Descriptor) (index : Nat) (written : Bool)
  deriving DecidableEq

namespace IfaceUpdate

/-- The update of `CMMSocketImpl::ifaces` in `interface_up` and `interface_down`. -/
def apply (update : IfaceUpdate) (ifaces : NetInterfaceSet) : NetInterfaceSet :=
  if update.down then ifaces.erase update.iface.ipAddr.toNat else ifaces.insert update.iface

/-- Updates that are applied in their order. -/
def replay (updates : List IfaceUpdate) (ifaces : NetInterfaceSet) : NetInterfaceSet :=
  updates.foldl (fun ifaces update => update.apply ifaces) ifaces

/-- What the scout does to `net_interfaces` in one locked section before it calls
`notify_all_subscribers`: on commands, in `updateNetwork` and in `emulate_slice`. -/
def change (changed down : List NetInterface) (netInterfaces : NetInterfaceSet) :
    NetInterfaceSet :=
  (netInterfaces.eraseAll (down.map fun iface => iface.ipAddr.toNat)).replaceAll changed

/-- The messages of `notify_subscriber`. -/
def notices (changed down : List NetInterface) : List IfaceUpdate :=
  changed.map (⟨·, false⟩) ++ down.map (⟨·, true⟩)

end IfaceUpdate

open IfaceUpdate

namespace SocketIfaces

variable (platform : Platform) (sk : SocketIfaces)

/-- A multisocket that was created. -/
def empty : SocketIfaces := ⟨.empty, .empty, .empty, false, [], false⟩

/-- `CMMSocketImpl::isLoopbackOnly`. -/
def isLoopbackOnly : Bool :=
  match sk.localIfaces.toList with
  | [iface] => iface.ipAddr == platform.net inaddrLoopback
  | _ => false

/-- `CMMSocketImpl::setup` of a local interface. Only an interface that is not new is announced,
as a connection on it announces a new one. -/
def setup (iface : NetInterface) : SocketIfaces :=
  if sk.isLoopbackOnly platform then sk
  else if sk.localIfaces.has iface.ipAddr.toNat then
    { sk with
      localIfaces := (sk.localIfaces.erase iface.ipAddr.toNat).insert iface
      changedLocalIfaces := (sk.changedLocalIfaces.erase iface.ipAddr.toNat).insert iface }
  else { sk with localIfaces := sk.localIfaces.insert iface }

/-- `CMMSocketImpl::teardown` of a local interface. The bootstrapper is followed untested. -/
def teardown (iface : NetInterface) : Option SocketIfaces :=
  if sk.isLoopbackOnly platform then some sk
  else if sk.bootstrapper then
    some { sk with
      localIfaces := sk.localIfaces.erase iface.ipAddr.toNat
      downLocalIfaces := sk.downLocalIfaces.insert iface }
  else none

/-- The interface that stands for the host itself. -/
def localhost : NetInterface := ⟨platform.net inaddrLoopback, 100000000, 100000000, 0, 0⟩

/-- `CMMSocketImpl::connection_bootstrap` for a peer with an address, up to the construction of the
bootstrapper. -/
def bootstrap (ifaces : NetInterfaceSet) (address : UInt32) : SocketIfaces :=
  if address = platform.net inaddrLoopback then
    { sk with localIfaces := sk.localIfaces.insert (localhost platform), elsewhere := false }
  else { sk with localIfaces := ifaces, elsewhere := true }

/-- `pop_item` in `schedule_work`. -/
def pop (down : Bool) : Option SocketIfaces :=
  if down then
    sk.downLocalIfaces.pop.map fun (iface, rest) =>
      { sk with downLocalIfaces := rest, hands := ⟨iface, true⟩ :: sk.hands }
  else
    sk.changedLocalIfaces.pop.map fun (iface, rest) =>
      { sk with changedLocalIfaces := rest, hands := ⟨iface, false⟩ :: sk.hands }

/-- The end of `CSocketSender::new_interface` and `CSocketSender::down_interface`. -/
def wrote (index : Nat) (written : Bool) : Option SocketIfaces :=
  sk.hands[index]?.map fun update =>
    let hands := sk.hands.eraseIdx index
    if written then { sk with hands := hands }
    else if update.down then
      { sk with hands := hands, downLocalIfaces := sk.downLocalIfaces.insert update.iface }
    else
      { sk with hands := hands, changedLocalIfaces := sk.changedLocalIfaces.insert update.iface }

end SocketIfaces

namespace Updates

variable (platform : Platform) (state : Updates)

/-- A multisocket is replaced. -/
def setSocket (sock : Descriptor) (sk : Option SocketIfaces) : Updates :=
  { state with cmmSockHash := state.cmmSockHash.set sock sk }

/-- `process_interface_update`. -/
def processInterfaceUpdate (update : IfaceUpdate) : Option Updates :=
  (state.cmmSockHash.forEach fun sk =>
    if update.down then sk.teardown platform update.iface
    else some (sk.setup platform update.iface)).map fun hash =>
      { state with ifaces := update.apply state.ifaces, cmmSockHash := hash }

/-- One step. The scout makes the next change when it has written about the last one. -/
def step : UpdateEvent → Option Updates
  | .update changed down =>
      if state.batch = [] then
        some { state with
          netInterfaces := change changed down state.netInterfaces
          batch := notices changed down }
      else none
  | .notify written =>
      match state.batch, state.subscription with
      | [], _ => none
      | update :: rest, .active =>
          if written then some { state with batch := rest, pending := state.pending ++ [update] }
          else some { state with batch := [], subscription := .ended }
      -- no socket is entered, or it is not this one
      | _ :: rest, _ => some { state with batch := rest }
  | .subscribe =>
      if state.subscription = .unknown then
        some { state with subscription := .greeting state.netInterfaces.toList }
      else none
  | .greet written =>
      match state.subscription with
      | .greeting (iface :: left) =>
          if written then
            some { state with
              subscription := .greeting left
              pending := state.pending ++ [⟨iface, false⟩] }
          else some { state with subscription := .ended }
      | _ => none
  | .watch =>
      if state.subscription = .greeting [] then some { state with subscription := .active }
      else none
  | .lose => some { state with subscription := .ended }
  | .receive =>
      match state.pending with
      | [] => none
      | update :: rest =>
          { state with pending := rest }.processInterfaceUpdate platform update
  | .addConnection sock iface =>
      -- `CSockMapping::add_connection`, after the listener has found the interface to be there
      (state.cmmSockHash sock).bind fun sk =>
        if sk.localIfaces.has iface.ipAddr.toNat then some state
        else state.processInterfaceUpdate platform ⟨iface, false⟩
  | .create sock =>
      if (state.cmmSockHash sock).isNone then some (state.setSocket sock (some .empty)) else none
  | .bootstrap sock address =>
      (state.cmmSockHash sock).map fun sk =>
        state.setSocket sock (some (sk.bootstrap platform state.ifaces address))
  | .newBootstrapper sock =>
      (state.cmmSockHash sock).map fun sk =>
        state.setSocket sock (some { sk with bootstrapper := true })
  | .close sock => some (state.setSocket sock none)
  | .pop sock down =>
      (state.cmmSockHash sock).bind fun sk =>
        (sk.pop down).map fun popped => state.setSocket sock (some popped)
  | .write sock index written =>
      (state.cmmSockHash sock).bind fun sk =>
        (sk.wrote index written).map fun next => state.setSocket sock (some next)

/-- The scout knows some interfaces, and the process has not started. -/
def start (netInterfaces : NetInterfaceSet) : Updates :=
  ⟨netInterfaces, [], .unknown, [], .empty, .empty⟩

/-- Any interleaving of the scout, the process and its senders. -/
def machine : Machine Updates UpdateEvent where
  initial state := ∃ netInterfaces, state = start netInterfaces
  permitted _ _ := True
  step state := state.step platform

/-- No interface changes while the process is greeted, the scout never reports the loopback
interface, no interface goes up and down at once, and no csocket is accepted on an interface that
has gone down meanwhile. -/
def Calm : UpdateEvent → Prop
  | .update changed down =>
      state.subscription.isGreeting = false ∧ ∀ iface ∈ changed,
        iface.ipAddr ≠ platform.net inaddrLoopback ∧ ∀ other ∈ down, other.ipAddr ≠ iface.ipAddr
  | .subscribe => state.netInterfaces.has (platform.net inaddrLoopback).toNat = false
  | .addConnection sock iface =>
      (state.cmmSockHash sock).all fun sk => sk.localIfaces.has iface.ipAddr.toNat
  | _ => True

instance : DecidablePred (state.Calm platform)
  | .update changed down => inferInstanceAs (Decidable (state.subscription.isGreeting = false ∧
      ∀ iface ∈ changed, iface.ipAddr ≠ platform.net inaddrLoopback ∧
        ∀ other ∈ down, other.ipAddr ≠ iface.ipAddr))
  | .subscribe =>
      inferInstanceAs
        (Decidable (state.netInterfaces.has (platform.net inaddrLoopback).toNat = false))
  | .addConnection sock iface => inferInstanceAs (Decidable
      ((state.cmmSockHash sock).all (fun sk => sk.localIfaces.has iface.ipAddr.toNat) = true))
  | .notify _ | .greet _ | .watch | .lose | .receive | .create _ | .bootstrap _ _
  | .newBootstrapper _ | .close _ | .pop _ _ | .write _ _ _ => instDecidableTrue

instance : ∀ event, Decidable ((machine platform).permitted state event) :=
  fun _ => instDecidableTrue

end Updates

/-! ### Replaying updates -/

namespace IfaceUpdate

variable {updates : List IfaceUpdate} {set other : NetInterfaceSet}

/-- The key of the interface. -/
def key (update : IfaceUpdate) : Nat := update.iface.ipAddr.toNat

theorem has_apply (update : IfaceUpdate) (set : NetInterfaceSet) (query : Nat) :
    (update.apply set).has query = if query = update.key then !update.down else set.has query := by
  unfold apply
  rw [Bool.eq_iff_iff]
  split_ifs with down same same
  · rw [KeyedSet.has_erase, down]
    exact iff_of_false (fun kept => kept.1 same) Bool.false_ne_true
  · rw [KeyedSet.has_erase]
    exact and_iff_right same
  · rw [KeyedSet.has_insert, Bool.eq_false_iff.mpr down]
    exact iff_of_true (.inl same) rfl
  · rw [KeyedSet.has_insert]
    exact or_iff_right same

theorem replay_append (first second : List IfaceUpdate) (set : NetInterfaceSet) :
    replay (first ++ second) set = replay second (replay first set) := List.foldl_append

/-- Updates that are true of a set make another one agree with it. -/
theorem has_replay {query : Nat} (told : ∀ update ∈ updates, other.has update.key = !update.down)
    (agree : set.has query = other.has query ∨ ∃ update ∈ updates, update.key = query) :
    (replay updates set).has query = other.has query := by
  induction updates generalizing set with
  | nil => exact agree.resolve_right fun none' => List.not_mem_nil none'.choose_spec.1
  | cons update rest ih =>
      refine ih (fun later member => told later (List.mem_cons_of_mem _ member)) ?_
      rw [has_apply]
      by_cases same : query = update.key
      · rw [if_pos same, same]
        exact .inl (told update List.mem_cons_self).symm
      · rw [if_neg same]
        refine agree.imp_right fun ⟨later, member, named⟩ => ?_
        rcases List.mem_cons.mp member with rfl | behind
        · exact absurd named.symm same
        · exact ⟨later, behind, named⟩

section

variable {changed down : List NetInterface}

/-- The messages about a change are true when it is made, as nothing goes up and down at once. -/
theorem notices_told (apart : ∀ iface ∈ changed, ∀ other ∈ down, other.ipAddr ≠ iface.ipAddr) :
    ∀ update ∈ notices changed down, (change changed down set).has update.key = !update.down := by
  intro update member
  rcases List.mem_append.mp member with up | gone
  · obtain ⟨iface, listed, rfl⟩ := List.mem_map.mp up
    exact KeyedSet.has_replaceAll.mpr (.inl ⟨iface, listed, rfl⟩)
  · obtain ⟨iface, listed, rfl⟩ := List.mem_map.mp gone
    refine Bool.eq_false_iff.mpr fun kept => ?_
    rcases KeyedSet.has_replaceAll.mp kept with ⟨other, up, same⟩ | old
    · exact apart other up iface listed (UInt32.toNat_inj.mp same.symm)
    · exact (KeyedSet.has_eraseAll.mp old).1 (List.mem_map_of_mem listed)

/-- What the messages do not name is unchanged. -/
theorem has_change_other {query : Nat}
    (unnamed : ¬∃ update ∈ notices changed down, update.key = query) :
    (change changed down set).has query = set.has query := by
  rw [Bool.eq_iff_iff]
  refine KeyedSet.has_replaceAll.trans ((or_iff_right ?_).trans
    (KeyedSet.has_eraseAll.trans (and_iff_right ?_)))
  · rintro ⟨iface, listed, named⟩
    exact unnamed ⟨_, List.mem_append_left _ (List.mem_map_of_mem listed), named⟩
  · intro listed
    obtain ⟨iface, member, named⟩ := List.mem_map.mp listed
    exact unnamed ⟨_, List.mem_append_right _ (List.mem_map_of_mem member), named⟩

end

/-- A set is rebuilt from what it lists. -/
theorem has_replay_all (set : NetInterfaceSet) (query : Nat) :
    (replay (set.toList.map (⟨·, false⟩)) .empty).has query = set.has query := by
  refine has_replay (fun update member => ?_) ?_
  · obtain ⟨iface, listed, rfl⟩ := List.mem_map.mp member
    exact KeyedSet.has_iff.mpr ⟨iface, listed, rfl⟩
  · cases known : set.has query with
    | false => exact .inl rfl
    | true =>
        obtain ⟨iface, listed, named⟩ := KeyedSet.has_iff.mp known
        exact .inr ⟨_, List.mem_map_of_mem listed, named⟩

end IfaceUpdate

/-! ### Multisockets -/

namespace SocketIfaces

variable {platform : Platform} {sk after : SocketIfaces} {iface : NetInterface}
  {down written : Bool} {index query : Nat}

/-- A multisocket that does not have the loopback interface takes part in updates. -/
theorem isLoopbackOnly_eq_false
    (proper : sk.localIfaces.has (platform.net inaddrLoopback).toNat = false) :
    sk.isLoopbackOnly platform = false := by
  unfold isLoopbackOnly
  split
  next only listed =>
    rw [beq_eq_false_iff_ne]
    intro loopback
    refine Bool.eq_false_iff.mp proper (KeyedSet.has_iff.mpr ⟨only, ?_, ?_⟩)
    · rw [listed]
      exact List.mem_singleton_self only
    · rw [loopback]
  next => rfl

theorem has_setup (participates : sk.isLoopbackOnly platform = false) :
    (sk.setup platform iface).localIfaces.has query =
      (IfaceUpdate.apply ⟨iface, false⟩ sk.localIfaces).has query := by
  rw [has_apply]
  unfold setup
  rw [participates, if_neg Bool.false_ne_true]
  split_ifs with known same same
  all_goals rw [Bool.eq_iff_iff, KeyedSet.has_insert]
  · exact iff_of_true (.inl same) rfl
  · rw [KeyedSet.has_erase]
    exact (or_iff_right same).trans (and_iff_right same)
  · exact iff_of_true (.inl same) rfl
  · exact or_iff_right same

theorem has_teardown (participates : sk.isLoopbackOnly platform = false)
    (torn : sk.teardown platform iface = some after) : after.localIfaces.has query =
      (IfaceUpdate.apply ⟨iface, true⟩ sk.localIfaces).has query := by
  unfold teardown at torn
  rw [participates, if_neg Bool.false_ne_true] at torn
  split_ifs at torn
  cases torn
  rfl

@[simp] theorem setup_elsewhere : (sk.setup platform iface).elsewhere = sk.elsewhere := by
  unfold setup
  split_ifs <;> rfl

theorem teardown_elsewhere (torn : sk.teardown platform iface = some after) :
    after.elsewhere = sk.elsewhere := by
  unfold teardown at torn
  split_ifs at torn <;> cases torn <;> rfl

/-- A sender that takes an announcement leaves the interfaces alone. -/
theorem pop_kept (popped : sk.pop down = some after) :
    after.localIfaces = sk.localIfaces ∧ after.elsewhere = sk.elsewhere := by
  unfold pop at popped
  split_ifs at popped
  · obtain ⟨_, -, rfl⟩ := Option.map_eq_some_iff.mp popped
    exact ⟨rfl, rfl⟩
  · obtain ⟨_, -, rfl⟩ := Option.map_eq_some_iff.mp popped
    exact ⟨rfl, rfl⟩

theorem wrote_kept (wrote : sk.wrote index written = some after) :
    after.localIfaces = sk.localIfaces ∧ after.elsewhere = sk.elsewhere := by
  obtain ⟨update, -, rfl⟩ := Option.map_eq_some_iff.mp wrote
  dsimp only
  split_ifs <;> exact ⟨rfl, rfl⟩

end SocketIfaces

/-! ### Agreement -/

namespace Updates

variable {platform : Platform} {state before after : Updates} {event : UpdateEvent}

/-- The scout's interfaces, the messages under way and the interfaces of the process fit
together. -/
structure InStep (platform : Platform) (state : Updates) : Prop where
  batch : ∀ update ∈ state.batch, state.netInterfaces.has update.key = !update.down
  unknown : state.subscription = .unknown → state.pending = [] ∧ state.ifaces = .empty
  greeting : ∀ left, state.subscription = .greeting left → ∀ query,
    (replay (state.pending ++ left.map (⟨·, false⟩)) state.ifaces).has query =
      state.netInterfaces.has query
  active : state.subscription = .active → ∀ query,
    (replay (state.pending ++ state.batch) state.ifaces).has query = state.netInterfaces.has query
  proper : ∀ update ∈ state.pending ++ state.batch, update.down = false →
    update.iface.ipAddr ≠ platform.net inaddrLoopback
  properGreeting : ∀ left, state.subscription = .greeting left → ∀ iface ∈ left,
    iface.ipAddr ≠ platform.net inaddrLoopback
  properIfaces : state.ifaces.has (platform.net inaddrLoopback).toNat = false
  sockets : ∀ sock sk, state.cmmSockHash sock = some sk → sk.elsewhere = true → ∀ query,
    sk.localIfaces.has query = state.ifaces.has query

/-- One multisocket is replaced by another with the interfaces of the process. -/
theorem InStep.setSocket (inStep : state.InStep platform) {sock : Descriptor}
    {sk : Option SocketIfaces}
    (agrees : ∀ after ∈ sk, after.elsewhere = true → ∀ query,
      after.localIfaces.has query = state.ifaces.has query) :
    (state.setSocket sock sk).InStep platform :=
  { inStep with
    sockets := fun other held found => by
      dsimp only [Updates.setSocket, SocketHash.set] at found
      by_cases same : other = sock
      · subst same
        rw [Function.update_self] at found
        exact agrees held found
      · rw [Function.update_of_ne same] at found
        exact inStep.sockets other held found }

/-- The process and its multisockets change in the same way. -/
theorem sockets_process {first : Updates} {update : IfaceUpdate}
    (proper : first.ifaces.has (platform.net inaddrLoopback).toNat = false)
    (agree : ∀ sock sk, first.cmmSockHash sock = some sk → sk.elsewhere = true → ∀ query,
      sk.localIfaces.has query = first.ifaces.has query)
    (processed : first.processInterfaceUpdate platform update = some after) :
    ∃ hash, after = { first with ifaces := update.apply first.ifaces, cmmSockHash := hash } ∧
      ∀ sock sk, hash sock = some sk → sk.elsewhere = true → ∀ query,
        sk.localIfaces.has query = (update.apply first.ifaces).has query := by
  obtain ⟨hash, changed, rfl⟩ := Option.map_eq_some_iff.mp processed
  refine ⟨hash, rfl, fun sock sk found elsewhere query => ?_⟩
  rw [SocketHash.forEach_eq_some changed] at found
  obtain ⟨old, held, made⟩ := Option.bind_eq_some_iff.mp found
  have same : old.elsewhere = true := by
    rw [← elsewhere]
    split_ifs at made
    · exact (SocketIfaces.teardown_elsewhere made).symm
    · cases made
      exact SocketIfaces.setup_elsewhere.symm
  have agrees := agree sock old held same
  have participates := SocketIfaces.isLoopbackOnly_eq_false ((agrees _).trans proper)
  rw [has_apply, ← agrees, ← has_apply]
  obtain ⟨iface, down⟩ := update
  cases down with
  | true => exact SocketIfaces.has_teardown participates made
  | false =>
      cases made
      exact SocketIfaces.has_setup participates

/-- Both sides read the same message. -/
theorem InStep.receive {update : IfaceUpdate} {rest : List IfaceUpdate}
    (inStep : before.InStep platform) (arrives : before.pending = update :: rest)
    (processed : { before with pending := rest }.processInterfaceUpdate platform update =
      some after) : after.InStep platform := by
  obtain ⟨hash, rfl, agree⟩ := @sockets_process platform after { before with pending := rest }
    update inStep.properIfaces inStep.sockets processed
  refine
    { batch := inStep.batch
      unknown := fun none' => nomatch arrives.symm.trans (inStep.unknown none').1
      greeting := fun left greeting => ?_
      active := fun active => ?_
      proper := fun other member => inStep.proper other ?_
      properGreeting := inStep.properGreeting
      properIfaces := (has_apply update before.ifaces _).trans ?_
      sockets := agree }
  · have greeted := inStep.greeting left greeting
    rw [arrives] at greeted
    exact greeted
  · have told := inStep.active active
    rw [arrives] at told
    exact told
  · rw [arrives]
    exact List.mem_cons_of_mem _ member
  · split_ifs with same
    · cases down : update.down with
      | true => rfl
      | false =>
          refine absurd (UInt32.toNat_inj.mp same.symm) (inStep.proper update ?_ down)
          rw [arrives]
          exact List.mem_append_left _ List.mem_cons_self
    · exact inStep.properIfaces

/-- A change of the scout's interfaces is what the messages will say. -/
theorem InStep.update {changed down : List NetInterface} (inStep : before.InStep platform)
    (calm : before.Calm platform (.update changed down))
    (moved : before.step platform (.update changed down) = some after) :
    after.InStep platform := by
  obtain ⟨quiet, proper⟩ := calm
  dsimp only [step] at moved
  split_ifs at moved with idle
  cases moved
  have told := @notices_told before.netInterfaces _ _ fun iface member => (proper iface member).2
  exact
    { inStep with
      batch := told
      greeting := fun left greeting => nomatch (greeting ▸ quiet)
      active := fun active query => by
        have agrees := inStep.active active query
        rw [idle, List.append_nil] at agrees
        rw [replay_append]
        refine has_replay told ?_
        by_cases named : ∃ update ∈ notices changed down, update.key = query
        · exact .inr named
        · exact .inl (agrees.trans (has_change_other named).symm)
      proper := fun update member up => by
        rcases List.mem_append.mp member with old | new
        · exact inStep.proper update (List.mem_append_left _ old) up
        · rcases List.mem_append.mp new with listed | listed
          · obtain ⟨iface, added, rfl⟩ := List.mem_map.mp listed
            exact (proper iface added).1
          · obtain ⟨iface, -, rfl⟩ := List.mem_map.mp listed
            cases up }

/-- The scout writes a message about a change, or has no socket to write it to. -/
theorem InStep.notify {written : Bool} (inStep : before.InStep platform)
    (moved : before.step platform (.notify written) = some after) : after.InStep platform := by
  dsimp only [step] at moved
  split at moved
  next => cases moved
  next update rest batch active =>
    split_ifs at moved
    · cases moved
      have same : before.pending ++ [update] ++ rest = before.pending ++ before.batch := by
        rw [batch, List.append_assoc]
        rfl
      exact
        { inStep with
          batch := fun other member =>
            inStep.batch other (batch ▸ List.mem_cons_of_mem update member)
          unknown := fun none' => nomatch active.symm.trans none'
          greeting := fun left greeting => nomatch active.symm.trans greeting
          active := fun _ => by
            rw [same]
            exact inStep.active active
          proper := by
            rw [same]
            exact inStep.proper }
    · cases moved
      exact
        { inStep with
          batch := fun _ member => absurd member List.not_mem_nil
          unknown := nofun
          greeting := nofun
          active := nofun
          properGreeting := nofun
          proper := fun other member => inStep.proper other (by
            rw [List.append_nil] at member
            exact List.mem_append_left _ member) }
  next update rest batch inactive =>
    cases moved
    exact
      { inStep with
        batch := fun other member =>
          inStep.batch other (batch ▸ List.mem_cons_of_mem update member)
        active := fun active => (inactive active).elim
        proper := fun other member => inStep.proper other (by
          rw [batch]
          exact (List.mem_append.mp member).elim (List.mem_append_left _) fun later =>
            List.mem_append_right _ (List.mem_cons_of_mem _ later)) }

/-- The process is told what the scout has. -/
theorem InStep.subscribe (inStep : before.InStep platform)
    (calm : before.Calm platform .subscribe)
    (moved : before.step platform .subscribe = some after) : after.InStep platform := by
  dsimp only [step] at moved
  split_ifs at moved with unknown
  cases moved
  obtain ⟨nothing, empty⟩ := inStep.unknown unknown
  exact
    { inStep with
      unknown := nofun
      active := nofun
      greeting := fun left greeting query => by
        cases greeting
        rw [nothing, empty, List.nil_append]
        exact has_replay_all before.netInterfaces query
      properGreeting := fun left greeting iface member loopback => by
        cases greeting
        refine Bool.eq_false_iff.mp calm (KeyedSet.has_iff.mpr ⟨iface, member, ?_⟩)
        rw [loopback] }

theorem InStep.greet {written : Bool} (inStep : before.InStep platform)
    (moved : before.step platform (.greet written) = some after) : after.InStep platform := by
  dsimp only [step] at moved
  split at moved
  next iface left subscription =>
    split_ifs at moved
    · cases moved
      exact
        { inStep with
          unknown := nofun
          active := nofun
          greeting := fun others greeting query => by
            cases greeting
            have agrees := inStep.greeting _ subscription query
            rw [List.map_cons, List.append_cons] at agrees
            exact agrees
          proper := fun update member up => by
            rw [List.append_assoc] at member
            rcases List.mem_append.mp member with old | new
            · exact inStep.proper update (List.mem_append_left _ old) up
            · rcases List.mem_cons.mp new with rfl | batch
              · exact inStep.properGreeting _ subscription iface List.mem_cons_self
              · exact inStep.proper update (List.mem_append_right _ batch) up
          properGreeting := fun others greeting other member => by
            cases greeting
            exact inStep.properGreeting _ subscription other (List.mem_cons_of_mem _ member) }
    · cases moved
      exact
        { inStep with
          unknown := nofun
          greeting := nofun
          active := nofun
          properGreeting := nofun }
  next => cases moved

/-- The messages about an earlier change are true already. -/
theorem InStep.watch (inStep : before.InStep platform)
    (moved : before.step platform .watch = some after) : after.InStep platform := by
  dsimp only [step] at moved
  split_ifs at moved with greeted
  cases moved
  exact
    { inStep with
      unknown := nofun
      greeting := nofun
      properGreeting := nofun
      active := fun _ query => by
        have agrees := inStep.greeting [] greeted query
        rw [List.map_nil, List.append_nil] at agrees
        rw [replay_append]
        exact has_replay inStep.batch (.inl agrees) }

theorem inStep_step (inStep : before.InStep platform) (calm : before.Calm platform event)
    (moved : before.step platform event = some after) : after.InStep platform := by
  cases event with
  | update changed down => exact inStep.update calm moved
  | notify written => exact inStep.notify moved
  | subscribe => exact inStep.subscribe calm moved
  | greet written => exact inStep.greet moved
  | watch => exact inStep.watch moved
  | lose =>
      cases moved
      exact
        { inStep with
          unknown := nofun
          greeting := nofun
          active := nofun
          properGreeting := nofun }
  | receive =>
      dsimp only [step] at moved
      split at moved
      next => cases moved
      next update rest arrives => exact inStep.receive arrives moved
  | addConnection sock iface =>
      obtain ⟨sk, found, moved⟩ := Option.bind_eq_some_iff.mp moved
      have known : sk.localIfaces.has iface.ipAddr.toNat = true := by
        have calm : (before.cmmSockHash sock).all _ = true := calm
        rwa [found] at calm
      rw [if_pos known] at moved
      cases moved
      exact inStep
  | create sock =>
      dsimp only [step] at moved
      split_ifs at moved
      cases moved
      refine inStep.setSocket fun sk made elsewhere => ?_
      cases made
      cases elsewhere
  | bootstrap sock address =>
      obtain ⟨sk, -, rfl⟩ := Option.map_eq_some_iff.mp moved
      refine inStep.setSocket fun next made elsewhere query => ?_
      cases made
      unfold SocketIfaces.bootstrap at elsewhere ⊢
      split_ifs at elsewhere ⊢
      rfl
  | newBootstrapper sock =>
      obtain ⟨sk, found, rfl⟩ := Option.map_eq_some_iff.mp moved
      refine inStep.setSocket fun next made elsewhere => ?_
      cases made
      exact inStep.sockets sock sk found elsewhere
  | close sock =>
      cases moved
      exact inStep.setSocket fun _ made => nomatch made
  | pop sock down =>
      obtain ⟨sk, found, popped⟩ := Option.bind_eq_some_iff.mp moved
      obtain ⟨next, taken, rfl⟩ := Option.map_eq_some_iff.mp popped
      obtain ⟨kept, same⟩ := SocketIfaces.pop_kept taken
      refine inStep.setSocket fun other made elsewhere => ?_
      cases made
      rw [kept]
      exact inStep.sockets sock sk found (same.symm.trans elsewhere)
  | write sock index written =>
      obtain ⟨sk, found, wrote⟩ := Option.bind_eq_some_iff.mp moved
      obtain ⟨next, stopped, rfl⟩ := Option.map_eq_some_iff.mp wrote
      obtain ⟨kept, same⟩ := SocketIfaces.wrote_kept stopped
      refine inStep.setSocket fun other made elsewhere => ?_
      cases made
      rw [kept]
      exact inStep.sockets sock sk found (same.symm.trans elsewhere)

theorem inStep_start (netInterfaces : NetInterfaceSet) : (start netInterfaces).InStep platform where
  batch _ member := absurd member List.not_mem_nil
  unknown _ := ⟨rfl, rfl⟩
  greeting := nofun
  active := nofun
  proper _ member := absurd member List.not_mem_nil
  properGreeting := nofun
  properIfaces := rfl
  sockets _ _ found := nomatch found

/-- When the messages under way have been received, the process has the addresses that the scout
has. So has every multisocket whose peer is elsewhere. -/
theorem updates_arrive (reached : ((machine platform).restrict (Calm platform)).Reachable state) :
    (state.subscription = .active → ∀ query,
      (replay (state.pending ++ state.batch) state.ifaces).has query =
        state.netInterfaces.has query) ∧
    ∀ sock sk, state.cmmSockHash sock = some sk → sk.elsewhere = true → ∀ query,
      sk.localIfaces.has query = state.ifaces.has query := by
  have inStep : state.InStep platform :=
    reached.induct (fun _ ⟨netInterfaces, start⟩ => start ▸ inStep_start netInterfaces)
      fun _ _ _ _ inStep permitted moved => inStep_step inStep permitted.2 moved
  exact ⟨inStep.active, inStep.sockets⟩

set_option maxRecDepth 2000 in
/-- An interface comes up after a multisocket was bootstrapped, and another one goes down. -/
theorem updates_arrive_both : ∃ (state : Updates) (sk : SocketIfaces),
    state.cmmSockHash 7 = some sk ∧ sk.localIfaces.has 3 = false ∧ sk.localIfaces.has 4 = true ∧
      ∀ query, sk.localIfaces.has query = state.ifaces.has query := by
  obtain ⟨state, run, known⟩ := (Option.any_eq_true _ _).mp (show
    ((((machine .lp64).restrict (Calm .lp64)).run
      (start (KeyedSet.empty.insert ⟨3, 1250000, 1250000, 20, 1⟩))
      [.subscribe, .greet true, .watch, .receive, .create 7, .bootstrap 7 5, .newBootstrapper 7,
        .update [⟨4, 125000, 125000, 100, 2⟩] [⟨3, 0, 0, 0, 1⟩], .notify true, .receive,
        .notify true, .receive]).any fun state => (state.cmmSockHash 7).any fun sk =>
          !sk.localIfaces.has 3 && sk.localIfaces.has 4 && sk.elsewhere) = true by decide +kernel)
  obtain ⟨sk, found, holds⟩ := (Option.any_eq_true _ _).mp known
  rw [Bool.and_eq_true, Bool.and_eq_true, Bool.not_eq_true'] at holds
  have reached : ((machine .lp64).restrict (Calm .lp64)).Reachable state :=
    .run (.initial ⟨_, rfl⟩) run
  exact ⟨state, sk, found, holds.1.1, holds.1.2, (updates_arrive reached).2 7 sk found holds.2⟩

end Updates

end Libcmm
