import Libcmm.BootstrappingRuns
import Libcmm.Lib.Simulation

/-! # What a bootstrap ends with

A side that was successful knows what the other one said (`Bootstrapping.agreement`), and the
connecting side is successful only if the accepting one is.
-/

namespace Libcmm

open Lib

variable {platform : Platform}

namespace Bootstrapping

open Bootstrapper

variable {boot : Bootstrapping} {side : Bool}

/-- A side that was successful has said all it has to say. -/
theorem Sound.said_all (sound : boot.Sound platform)
    (succeeded : (boot.party side).status = .succeeded) :
    (boot.sent side).length = (boot.party side).told.length + 2 := by
  have placed := (sound.speaks side).placed
  unfold Placed at placed
  split at placed
  case h_9 => exact placed.1 succeeded
  case h_4 =>
    rcases placed with ⟨-, going, -⟩ | ⟨-, -, -, all⟩
    · cases going.symm.trans succeeded
    · exact all
  all_goals
    have going : (boot.party side).status = .inProgress := by tauto
    cases going.symm.trans succeeded

theorem Sound.listened (sound : boot.Sound platform)
    (succeeded : (boot.party side).status = .succeeded) :
    Listened side (boot.party side) (boot.party !side) (boot.received side) :=
  (hears_succeeded succeeded).mp (sound.hears side)

/-- The accepting side is through if it has said all. -/
theorem Sound.accepted (sound : boot.Sound platform)
    (all : (boot.sent true).length = (boot.party true).told.length + 2) :
    (boot.party true).status = .succeeded := by
  have placed := (sound.speaks true).placed
  by_cases stopped : (boot.party true).stage = .ended
  · unfold Placed at placed
    simp only [stopped] at placed
    exact placed.2 trivial all
  · exact absurd all (placed.short stopped)

theorem Sound.accepted_of_connected (sound : boot.Sound platform)
    (succeeded : (boot.party false).status = .succeeded)
    (proper : ∀ iface ∈ (boot.party true).told, iface.ipAddr ≠ 0) :
    (boot.party true).status = .succeeded := by
  rcases (sound.listened succeeded).whole with all | ⟨iface, member, zero⟩
  · apply sound.accepted
    obtain ⟨numIfaces, said⟩ := (sound.speaks true).said
    have most := said.length_le
    have least : boot.received false ≤ (boot.sent true).length := sound.within false
    unfold script at most
    simp only [List.length_cons, List.length_map, List.length_append, List.length_nil] at most
    have same : boot.received false = (boot.party true).told.length + 2 := all
    omega
  · exact absurd zero (proper iface member)

/-- The accepting side starts its csockets only after the connecting side has. When a side is
successful both have. It knows the port of the other side's listener and has read the interfaces
that were listed, up to one without an address, and the accepting side has taken over the strategy.
If no listed interface lacks an address, the accepting side is successful when the connecting
one is. -/
theorem agreement (reached : (machine platform).Reachable boot) :
    ((boot.party true).started = true → (boot.party false).started = true) ∧
    ((boot.party false).status = .succeeded →
      (∀ iface ∈ (boot.party true).told, iface.ipAddr ≠ 0) →
        (boot.party true).status = .succeeded) ∧
    ∀ side, (boot.party side).status = .succeeded →
      (∀ query, (boot.party query).started = true) ∧
        (boot.party side).remoteListenerPort = (boot.party !side).listenPort ∧
        (boot.party side).heard = ((boot.party !side).told.takeWhile
          fun iface => iface.ipAddr ≠ 0).map NetInterface.heard ∧
        (side = true → (boot.party true).redundancyStrategy = (boot.party false).offered) := by
  have sound := sound_of_reachable reached
  refine ⟨sound.order, sound.accepted_of_connected, fun side succeeded => ?_⟩
  have listened := sound.listened succeeded
  have own : (boot.party side).started = true :=
    (sound.speaks side).began (by rw [sound.said_all succeeded]; omega)
  have other : (boot.party !side).started = true :=
    (sound.speaks !side).began (listened.several.trans (sound.within side))
  refine ⟨fun query => ?_, listened.port, listened.heard, ?_⟩
  · by_cases same : query = side
    · exact same ▸ own
    · exact (Bool.eq_not_of_ne same) ▸ other
  · rintro rfl
    exact listened.strategy rfl

/-! ### A bootstrap that is left alone -/

/-- Nothing has failed, and no interface lacks an address. -/
structure Calm (boot : Bootstrapping) : Prop where
  intact : ∀ side, boot.closed side = true → (boot.party side).status = .succeeded
  lasting : ∀ side, (boot.party side).retry = false
  proper : ∀ side, ∀ iface ∈ (boot.party side).localIfaces.toList ++ (boot.party side).told,
    iface.ipAddr ≠ 0

/-- A side that can go on. -/
def Able (boot : Bootstrapping) (side : Bool) : Prop :=
  match (boot.party side).stage with
  | .sendHello | .startup | .sendListeners _ => True
  | .recvHello | .recvListeners => boot.arriving side ≠ none
  | .absent | .connecting | .ended => False

theorem not_arriving (none' : boot.arriving side = none) :
    (boot.sent !side).length ≤ boot.received side :=
  List.getElem?_eq_none_iff.mp none'

/-- A side that has no part of its way to go is through. -/
theorem Sound.going (sound : boot.Sound platform) (calm : boot.Calm)
    (unfinished : (boot.party side).status ≠ .succeeded) :
    (boot.party side).stage ≠ .ended ∧ (boot.party side).stage ≠ .connecting :=
  ⟨fun stopped => unfinished (calm.intact side (sound.shut side (.inl stopped))),
    fun stopped => unfinished (calm.intact side (sound.shut side (.inr stopped)))⟩

/-- What is under way can be received. -/
theorem arriving_of_lt (more : boot.received side < (boot.sent !side).length) :
    boot.arriving side ≠ none := by
  unfold arriving
  rw [List.getElem?_eq_getElem more]
  exact Option.some_ne_none _

/-- The accepting side can go on if it has not said all, and nothing it waits for is missing. -/
theorem Sound.acceptor_able (sound : boot.Sound platform) (calm : boot.Calm)
    (present : (boot.party true).stage ≠ .absent)
    (short : (boot.sent true).length ≠ (boot.party true).told.length + 2)
    (hello : (boot.party true).stage = .recvHello → boot.received true < (boot.sent false).length)
    (list : (boot.party true).stage = .recvListeners →
      boot.received true < (boot.sent false).length) : boot.Able true := by
  have placed := (sound.speaks true).placed
  unfold Placed at placed
  unfold Able
  cases stage : (boot.party true).stage with
  | absent => exact (present stage).elim
  | connecting =>
      simp only [stage] at placed
      exact absurd placed.1.symm Bool.false_ne_true
  | ended =>
      have through := calm.intact true (sound.shut true (.inl stage))
      exact (short (sound.said_all through)).elim
  | sendHello | startup | sendListeners left => trivial
  | recvHello => exact arriving_of_lt (hello stage)
  | recvListeners => exact arriving_of_lt (list stage)

/-- While the connecting side waits the accepting one can go on. -/
theorem Sound.able (sound : boot.Sound platform) (calm : boot.Calm)
    (unfinished : (boot.party false).status ≠ .succeeded) : boot.Able false ∨ boot.Able true := by
  obtain ⟨going, connected⟩ := sound.going calm unfinished
  have present := sound.not_alone going connected
  have placed := (sound.speaks false).placed
  have placed' := (sound.speaks true).placed
  have within : boot.received false ≤ (boot.sent true).length := sound.within false
  unfold Placed at placed placed'
  by_cases blocked : boot.arriving false = none
  swap
  · left
    unfold Able
    cases stage : (boot.party false).stage with
    | absent =>
        simp only [stage] at placed
        exact absurd placed.1 Bool.false_ne_true
    | connecting => exact (connected stage).elim
    | ended => exact (going stage).elim
    | sendHello | startup | sendListeners left => trivial
    | recvHello | recvListeners => exact blocked
  have few : (boot.sent true).length ≤ boot.received false := not_arriving blocked
  cases stage : (boot.party false).stage with
  | absent =>
      simp only [stage] at placed
      exact absurd placed.1 Bool.false_ne_true
  | connecting => exact (connected stage).elim
  | ended => exact (going stage).elim
  | sendHello | startup | sendListeners left =>
      left
      unfold Able
      simp only [stage]
  | recvHello =>
      simp only [stage] at placed
      rcases placed with ⟨-, status, one⟩ | ⟨-, -, succeeded, -⟩
      swap
      · exact (unfinished succeeded).elim
      obtain ⟨none', -⟩ := (sound.hears false).holds status stage
      right
      refine sound.acceptor_able calm present (by omega) (fun here => ?_) fun here => ?_
      · simp only [here] at placed'
        rcases placed' with ⟨-, status', -⟩ | ⟨wrong, -⟩
        · obtain ⟨nothing, -⟩ := (sound.hears true).holds status' here
          rw [nothing, one]
          exact Nat.zero_lt_one
        · cases wrong
      · simp only [here] at placed'
        have said : (boot.sent true).length = 1 := placed'.2.2
        omega
  | recvListeners =>
      simp only [stage] at placed
      obtain ⟨-, status, all⟩ := placed
      have greeted : Greeted false (boot.party false) (boot.party true) (boot.received false) :=
        (sound.hears false).holds status stage
      have some' := greeted.some'
      have partly := greeted.going
      right
      refine sound.acceptor_able calm present (by omega) (fun here => ?_) fun here => ?_
      · simp only [here] at placed'
        rcases placed' with ⟨-, -, none'⟩ | ⟨wrong, -⟩
        · have silent : (boot.sent true).length = 0 := none'
          omega
        · cases wrong
      · simp only [here] at placed'
        have greeted' : Greeted true (boot.party true) (boot.party false) (boot.received true) :=
          (sound.hears true).holds placed'.2.1 here
        have partly' := greeted'.going
        have said : (boot.sent false).length = (boot.party false).told.length + 2 := all
        omega

/-- How many messages a bootstrapper says, if its list stays as it is. -/
def planned (speaker : Bootstrapper) (count : Nat) : Nat :=
  (if count ≤ 1 then speaker.localIfaces.toList else speaker.told).length + 2

/-- Whether the csockets are still to be started. -/
def due (side : Bool) : BootStage → Nat
  | .sendListeners _ | .ended => 0
  | .recvListeners => if side then 1 else 0
  | .absent | .connecting | .sendHello | .recvHello | .startup => 1

/-- What a side has to say, to start and to hear. -/
def share (boot : Bootstrapping) (side : Bool) : Nat :=
  planned (boot.party side) (boot.sent side).length - (boot.sent side).length +
    due side (boot.party side).stage +
      (planned (boot.party !side) (boot.sent !side).length - boot.received side)

/-- What the two sides have to do. -/
def work (boot : Bootstrapping) : Nat := boot.share false + boot.share true

theorem Sound.planned_le (sound : boot.Sound platform) (side : Bool) :
    (boot.sent side).length ≤ planned (boot.party side) (boot.sent side).length := by
  obtain ⟨numIfaces, said⟩ := (sound.speaks side).said
  have most := said.length_le
  unfold script at most
  simp only [List.length_cons, List.length_map, List.length_append, List.length_nil] at most
  unfold planned
  split_ifs <;> omega

variable {after : Bootstrapper} {said : List BootMessage} {got : Nat}

/-- A step of a side takes from its share only. -/
theorem work_advance (plan : planned after ((boot.sent side).length + said.length) =
      planned (boot.party side) (boot.sent side).length)
    (less : planned (boot.party side) (boot.sent side).length -
          ((boot.sent side).length + said.length) + due side after.stage +
        (planned (boot.party !side) (boot.sent !side).length - (boot.received side + got)) <
      boot.share side) : (boot.advance side said got after).work < boot.work := by
  have different : (!side) ≠ side := Bool.not_ne_self side
  have own : (boot.advance side said got after).share side < boot.share side := by
    unfold share at less ⊢
    simp only [advance, Function.update_self, Function.update_of_ne different, List.length_append,
      plan]
    exact less
  have other : (boot.advance side said got after).share (!side) = boot.share (!side) := by
    unfold share
    simp only [advance, Function.update_self, Function.update_of_ne different, Bool.not_not,
      List.length_append, plan]
  unfold work
  cases side with
  | false =>
      have same : (boot.advance false said got after).share true = boot.share true := other
      omega
  | true =>
      have same : (boot.advance true said got after).share false = boot.share false := other
      omega

/-- A side that goes on leaves the bootstrap calm. -/
theorem Calm.advance (calm : boot.Calm) (unfinished : (boot.party side).status ≠ .succeeded)
    (lasting : after.retry = false)
    (proper : ∀ iface ∈ after.localIfaces.toList ++ after.told, iface.ipAddr ≠ 0)
    (through : after.stage = .ended → after.status = .succeeded)
    (connected : after.stage ≠ .connecting) : (boot.advance side said got after).Calm := by
  constructor
  all_goals intro query
  all_goals by_cases same : query = side
  · subst same
    simp only [Bootstrapping.advance, Function.update_self, Bool.or_eq_true, beq_iff_eq]
    rintro ((closed | stopped) | stopped)
    · exact absurd (calm.intact query closed) unfinished
    · exact through stopped
    · exact (connected stopped).elim
  · simp only [Bootstrapping.advance, Function.update_of_ne same]
    exact calm.intact query
  · subst same
    simpa only [Bootstrapping.advance, Function.update_self] using lasting
  · simpa only [Bootstrapping.advance, Function.update_of_ne same] using calm.lasting query
  · subst same
    simpa only [Bootstrapping.advance, Function.update_self] using proper
  · simpa only [Bootstrapping.advance, Function.update_of_ne same] using calm.proper query

/-- The next state of a calm bootstrap, with less work left. -/
def Proceeds (platform : Platform) (boot : Bootstrapping) : Prop :=
  ∃ event next, (machine platform).permitted boot event ∧
    (machine platform).step boot event = some next ∧ next.Calm ∧ next.work < boot.work

/-- A message is sent. -/
theorem Calm.proceeds_said (calm : boot.Calm)
    (unfinished : (boot.party side).status ≠ .succeeded) {message : BootMessage}
    (moved : step platform boot (.send side true) =
      some (boot.sends side true message after))
    (lasting : after.retry = false)
    (proper : ∀ iface ∈ after.localIfaces.toList ++ after.told, iface.ipAddr ≠ 0)
    (through : after.stage = .ended → after.status = .succeeded)
    (connected : after.stage ≠ .connecting)
    (plan : planned after ((boot.sent side).length + 1) =
      planned (boot.party side) (boot.sent side).length)
    (more : (boot.sent side).length < planned (boot.party side) (boot.sent side).length)
    (less : due side after.stage ≤ due side (boot.party side).stage) : boot.Proceeds platform := by
  have open' : boot.closed side = false :=
    Bool.eq_false_of_not_eq_true fun closed => unfinished (calm.intact side closed)
  have sends : boot.sends side true message after = boot.advance side [message] 0 after := by
    unfold Bootstrapping.sends
    rw [open']
    rfl
  rw [sends] at moved
  have size : planned after ((boot.sent side).length + [message].length) =
      planned (boot.party side) (boot.sent side).length := plan
  refine ⟨.send side true, _, trivial, moved,
    calm.advance unfinished lasting proper through connected, work_advance size ?_⟩
  unfold share
  rw [List.length_singleton]
  omega

/-- A message is received. -/
theorem Sound.proceeds_heard (sound : boot.Sound platform) (calm : boot.Calm)
    (unfinished : (boot.party side).status ≠ .succeeded)
    (moved : step platform boot (.recv side true) = some (boot.advance side [] 1 after))
    (within : boot.received side < (boot.sent !side).length)
    (lasting : after.retry = false)
    (same : after.localIfaces = (boot.party side).localIfaces ∧ after.told = (boot.party side).told)
    (through : after.stage = .ended → after.status = .succeeded)
    (connected : after.stage ≠ .connecting)
    (less : due side after.stage ≤ due side (boot.party side).stage) : boot.Proceeds platform := by
  obtain ⟨ifaces, told⟩ := same
  have proper := calm.proper side
  rw [← ifaces, ← told] at proper
  have most := sound.planned_le !side
  refine ⟨.recv side true, _, trivial, moved,
    calm.advance unfinished lasting proper through connected, work_advance ?_ ?_⟩
  · unfold planned
    rw [ifaces, told]
    rfl
  · unfold share
    rw [List.length_nil]
    omega

/-- The steps in front of the lists are followed by others. -/
theorem next_of_early (side : Bool) {stage : BootStage} (early : stage = .sendHello ∨
    stage = .recvHello) : ∃ follows, next side stage = some follows ∧ follows ≠ .ended ∧
      follows ≠ .connecting ∧ due side follows ≤ due side stage := by
  rcases early with rfl | rfl <;> cases side <;>
    exact ⟨_, rfl, BootStage.noConfusion, BootStage.noConfusion, by decide⟩

theorem step_send_hello {done : Bool} (stage : (boot.party side).stage = .sendHello) :
    step platform boot (.send side done) =
      some (boot.sends side done (helloMessage platform (boot.party side))
        { boot.party side with offered := (boot.party side).redundancyStrategy }.onward) := by
  unfold step
  dsimp only
  split
  case h_1 => rfl
  case h_2 left here => cases stage.symm.trans here
  case h_3 other _ => exact (other stage).elim

theorem step_send_listener {done : Bool} {left : Option (List NetInterface)} {iface : NetInterface}
    {rest : List NetInterface} (stage : (boot.party side).stage = .sendListeners left)
    (list : left.getD ((boot.party side).localIfaces.toList ++ [sentinel]) = iface :: rest) :
    let listing := { boot.party side with
      told := if left.isNone then (boot.party side).localIfaces.toList else (boot.party side).told }
    step platform boot (.send side done) =
      some (boot.sends side done (listenerMessage platform iface)
        (if rest = [] then listing.onward
          else { listing with stage := .sendListeners (some rest) })) := by
  unfold step
  dsimp only
  split
  case h_1 here => cases stage.symm.trans here
  case h_2 left' here =>
    cases stage.symm.trans here
    rw [list]
    cases rest <;> rfl
  case h_3 other => exact (other left stage).elim

theorem step_recv_hello {message : BootMessage} (stage : (boot.party side).stage = .recvHello)
    (arriving : boot.arriving side = some message) :
    step platform boot (.recv side true) = some (recvHello platform boot side message) := by
  unfold step
  simp only [stage, arriving, if_true]

theorem step_recv_listener {message : BootMessage}
    (stage : (boot.party side).stage = .recvListeners)
    (arriving : boot.arriving side = some message) :
    step platform boot (.recv side true) =
      some (recvRemoteListener platform boot side message) := by
  unfold step
  simp only [stage, arriving, if_true]

/-- A hello is sent. -/
theorem Sound.proceeds_hello (sound : boot.Sound platform) (calm : boot.Calm)
    (unfinished : (boot.party side).status ≠ .succeeded)
    (stage : (boot.party side).stage = .sendHello) : boot.Proceeds platform := by
  have placed := (sound.speaks side).placed
  unfold Placed at placed
  simp only [stage] at placed
  obtain ⟨accepts, -, none'⟩ := placed
  obtain ⟨follows, eq, going, connected, less⟩ := next_of_early side (.inl rfl)
  have moved := @step_send_hello platform boot side true stage
  rw [onward_some { boot.party side with offered := (boot.party side).redundancyStrategy }
    accepts stage eq] at moved
  refine calm.proceeds_said unfinished moved (calm.lasting side) (calm.proper side)
    (fun stopped => (going stopped).elim) connected ?_ ?_ ?_
  · rw [none']
    rfl
  · rw [none']
    exact Nat.succ_pos _
  · rw [stage]
    exact less

/-- The csockets are started. -/
theorem Sound.proceeds_startup (sound : boot.Sound platform) (calm : boot.Calm)
    (unfinished : (boot.party side).status ≠ .succeeded)
    (stage : (boot.party side).stage = .startup) : boot.Proceeds platform := by
  have placed := (sound.speaks side).placed
  unfold Placed at placed
  simp only [stage] at placed
  have follows : next side .startup = some (.sendListeners none) := by cases side <;> rfl
  have moved : step platform boot (.startup side true) = some (boot.advance side [] 0
      { boot.party side with started := true, stage := .sendListeners none }) := by
    rw [← onward_some { boot.party side with started := true } placed.1 stage follows]
    exact if_pos stage
  refine ⟨.startup side true, _, trivial, moved, calm.advance unfinished (calm.lasting side)
    (calm.proper side) nofun BootStage.noConfusion, work_advance rfl ?_⟩
  unfold share
  rw [stage]
  exact Nat.add_lt_add_right (Nat.lt_succ_self _) _

/-- A hello is received. -/
theorem Sound.proceeds_met (sound : boot.Sound platform) (calm : boot.Calm)
    (unfinished : (boot.party side).status ≠ .succeeded)
    (stage : (boot.party side).stage = .recvHello) (able : boot.arriving side ≠ none) :
    boot.Proceeds platform := by
  have placed := (sound.speaks side).placed
  unfold Placed at placed
  simp only [stage] at placed
  rcases placed with ⟨accepts, status, -⟩ | ⟨-, -, succeeded, -⟩
  swap
  · exact (unfinished succeeded).elim
  obtain ⟨none', -⟩ := (sound.hears side).holds status stage
  obtain ⟨message, arriving⟩ := Option.ne_none_iff_exists'.mp able
  obtain ⟨within, numIfaces, at'⟩ := sound.arrives arriving
  rw [none'] at at'
  obtain rfl := Option.some.inj at'
  obtain ⟨follows, eq, going, connected, less⟩ := next_of_early side (.inr rfl)
  have moved := @step_recv_hello platform boot side _ stage arriving
  unfold recvHello at moved
  dsimp only at moved
  rw [onward_some (greet side _ _ (boot.party side)) accepts stage eq] at moved
  refine sound.proceeds_heard calm unfinished moved within (calm.lasting side) ⟨rfl, rfl⟩
    (fun stopped => (going stopped).elim) connected ?_
  rw [stage]
  exact less

/-- A list that is being sent has another element, and is as long as it was planned. -/
theorem Sound.listing (sound : boot.Sound platform) {left : Option (List NetInterface)}
    (stage : (boot.party side).stage = .sendListeners left) :
    (∃ iface rest, left.getD ((boot.party side).localIfaces.toList ++ [sentinel]) = iface :: rest) ∧
      ((boot.sent side).length ≤ 1 ↔ left = none) := by
  have placed := (sound.speaks side).placed
  unfold Placed at placed
  cases left with
  | none =>
      simp only [stage] at placed
      refine ⟨List.exists_cons_of_ne_nil ?_, fun _ => rfl, fun _ => placed.2.2.2.le⟩
      exact List.append_ne_nil_of_right_ne_nil _ (List.cons_ne_nil _ _)
  | some left =>
      simp only [stage] at placed
      obtain ⟨-, -, -, more, some', -⟩ := placed
      exact ⟨List.exists_cons_of_ne_nil some', fun few => absurd few (Nat.not_le_of_lt more), nofun⟩

/-- An interface is sent, or the end of the list. -/
theorem Sound.proceeds_list (sound : boot.Sound platform) (calm : boot.Calm)
    (unfinished : (boot.party side).status ≠ .succeeded) {left : Option (List NetInterface)}
    (stage : (boot.party side).stage = .sendListeners left) : boot.Proceeds platform := by
  obtain ⟨⟨iface, rest, some'⟩, first⟩ := sound.listing stage
  obtain ⟨told, listed⟩ : ∃ told, told = if left.isNone then (boot.party side).localIfaces.toList
      else (boot.party side).told := ⟨_, rfl⟩
  obtain ⟨accepts, -, -, one, -, list, -⟩ := (sound.speaks side).listing stage listed
  have moved := @step_send_listener platform boot side true left iface rest stage some'
  rw [some'] at list
  dsimp only at moved
  rw [← listed] at moved
  have same : (if (boot.sent side).length ≤ 1 then (boot.party side).localIfaces.toList
      else (boot.party side).told) = told := by
    rw [listed]
    cases left with
    | none => exact if_pos (first.mpr rfl)
    | some left => exact if_neg fun few => nomatch first.mp few
  have plan : ∀ after : Bootstrapper, after.told = told →
      planned after ((boot.sent side).length + 1) =
        planned (boot.party side) (boot.sent side).length := by
    intro after eq
    unfold planned
    rw [same, eq, if_neg (by omega)]
  have more : (boot.sent side).length < planned (boot.party side) (boot.sent side).length := by
    have count := congrArg List.length list
    simp only [List.length_cons, List.length_drop, List.length_append, List.length_nil] at count
    unfold planned
    rw [same]
    omega
  have proper : ∀ iface ∈ (boot.party side).localIfaces.toList ++ told, iface.ipAddr ≠ 0 := by
    intro other member
    have known := calm.proper side other
    rw [listed] at member
    rcases List.mem_append.mp member with mem | mem
    · exact known (List.mem_append_left _ mem)
    · split_ifs at mem
      · exact known (List.mem_append_left _ mem)
      · exact known (List.mem_append_right _ mem)
  by_cases last : rest = []
  · rw [if_pos last] at moved
    cases side with
    | false =>
        rw [onward_some { boot.party false with told := told } accepts stage rfl] at moved
        exact calm.proceeds_said unfinished moved (calm.lasting false) proper nofun
          BootStage.noConfusion (plan _ rfl) more (Nat.zero_le _)
    | true =>
        rw [onward_none { boot.party true with told := told } accepts stage rfl] at moved
        rcases succeed_cases { boot.party true with told := told } with ⟨-, eq⟩ | ⟨again, -⟩
        · rw [eq] at moved
          exact calm.proceeds_said unfinished moved (calm.lasting true) proper (fun _ => rfl)
            BootStage.noConfusion (plan _ rfl) more (Nat.zero_le _)
        · cases again.symm.trans (calm.lasting true)
  · rw [if_neg last] at moved
    exact calm.proceeds_said unfinished moved (calm.lasting side) proper nofun
      BootStage.noConfusion (plan _ rfl) more (Nat.zero_le _)

/-- An interface is received, or the end of the list. -/
theorem Sound.proceeds_listed (sound : boot.Sound platform) (calm : boot.Calm)
    (unfinished : (boot.party side).status ≠ .succeeded)
    (stage : (boot.party side).stage = .recvListeners) (able : boot.arriving side ≠ none) :
    boot.Proceeds platform := by
  have placed := (sound.speaks side).placed
  unfold Placed at placed
  simp only [stage] at placed
  obtain ⟨accepts, status, -⟩ := placed
  have greeted : Greeted side (boot.party side) (boot.party !side) (boot.received side) :=
    (sound.hears side).holds status stage
  obtain ⟨message, arriving⟩ := Option.ne_none_iff_exists'.mp able
  obtain ⟨within, numIfaces, at'⟩ := sound.arrives arriving
  obtain ⟨iface, rfl, -, -⟩ := next_of_greeted greeted at'
  have moved := @step_recv_listener platform boot side _ stage arriving
  unfold recvRemoteListener listenerMessage at moved
  dsimp only at moved
  split_ifs at moved with zero accepting
  · cases side with
    | true =>
        rw [onward_some (boot.party true) accepts stage rfl] at moved
        refine sound.proceeds_heard calm unfinished moved within (calm.lasting true) ⟨rfl, rfl⟩
          nofun BootStage.noConfusion ?_
        rw [stage]
        exact le_rfl
    | false =>
        rw [onward_none (boot.party false) accepts stage rfl] at moved
        obtain ⟨-, -, told, -, -, -, -, retry⟩ := (boot.party false).succeed_kept
        rcases (boot.party false).succeed_cases with ⟨-, eq⟩ | ⟨again, -⟩
        · rw [eq] at moved
          exact sound.proceeds_heard calm unfinished moved within (calm.lasting false) ⟨rfl, rfl⟩
            (fun _ => rfl) BootStage.noConfusion (Nat.zero_le _)
        · cases again.symm.trans (calm.lasting false)
  · refine sound.proceeds_heard calm unfinished moved within (calm.lasting side) ⟨rfl, rfl⟩ ?_ ?_ le_rfl
    · exact fun stopped => nomatch stage.symm.trans stopped
    · exact fun stopped => nomatch stage.symm.trans stopped
  · refine sound.proceeds_heard calm unfinished moved within (calm.lasting side) ⟨rfl, rfl⟩ ?_ ?_ le_rfl
    · exact fun stopped => nomatch stage.symm.trans stopped
    · exact fun stopped => nomatch stage.symm.trans stopped

/-- A calm bootstrap goes on until the connecting side is successful. -/
theorem Sound.proceeds (sound : boot.Sound platform) (calm : boot.Calm)
    (unfinished : (boot.party false).status ≠ .succeeded) : boot.Proceeds platform := by
  obtain ⟨side, able, unfinished⟩ : ∃ side, boot.Able side ∧
      (boot.party side).status ≠ .succeeded := by
    rcases sound.able calm unfinished with able | able
    · exact ⟨false, able, unfinished⟩
    · refine ⟨true, able, fun succeeded => ?_⟩
      have stopped : (boot.party true).stage = .ended := by
        by_contra going
        exact (sound.speaks true).placed.short going (sound.said_all succeeded)
      unfold Able at able
      simp only [stopped] at able
  unfold Able at able
  cases stage : (boot.party side).stage with
  | absent | connecting | ended => simp only [stage] at able
  | sendHello => exact sound.proceeds_hello calm unfinished stage
  | startup => exact sound.proceeds_startup calm unfinished stage
  | sendListeners left => exact sound.proceeds_list calm unfinished stage
  | recvHello =>
      simp only [stage] at able
      exact sound.proceeds_met calm unfinished stage able
  | recvListeners =>
      simp only [stage] at able
      exact sound.proceeds_listed calm unfinished stage able

/-- A calm bootstrap ends with success on both sides. -/
theorem Calm.leads (calm : boot.Calm) (reached : (machine platform).Reachable boot) :
    ∃ last, (machine platform).Leads boot last ∧ ∀ side, (last.party side).status = .succeeded := by
  induction work : boot.work using Nat.strong_induction_on generalizing boot with
  | _ amount ih =>
      have sound := sound_of_reachable reached
      by_cases finished : (boot.party false).status = .succeeded
      · refine ⟨boot, .refl boot, fun side => ?_⟩
        cases side with
        | false => exact finished
        | true => exact sound.accepted_of_connected finished fun iface member =>
            calm.proper true iface (List.mem_append_right _ member)
      · obtain ⟨event, next, permitted, moved, calm', less⟩ := sound.proceeds calm finished
        obtain ⟨last, onward, through⟩ :=
          ih next.work (work ▸ less) calm' (reached.step permitted moved) rfl
        exact ⟨last, (Lib.Machine.Leads.one permitted moved).trans onward, through⟩

/-- From every state in which both ends of the connection are open, no attempt was interrupted
and no interface lacks an address, both sides can end with success. -/
theorem completes (reached : (machine platform).Reachable boot)
    (intact : ∀ side, boot.closed side = false) (calm : (boot.party false).retry = false)
    (proper : ∀ side, ∀ iface ∈ (boot.party side).localIfaces.toList ++ (boot.party side).told,
      iface.ipAddr ≠ 0) :
    ∃ last, (machine platform).Leads boot last ∧
      ∀ side, (last.party side).status = .succeeded := by
  have lasting : ∀ side, (boot.party side).retry = false := fun side => by
    cases side with
    | false => exact calm
    | true => exact (sound_of_reachable reached).lasting
  exact Calm.leads ⟨fun side closed => (nomatch closed.symm.trans (intact side)), lasting, proper⟩
    reached

/-! ### The interfaces of the connecting side -/

/-- Interfaces whose addresses are all taken in a set. -/
def Within (ifaces known : NetInterfaceSet) : Prop :=
  ∀ iface ∈ ifaces.toList, known.has iface.ipAddr.toNat = true

instance (ifaces known : NetInterfaceSet) : Decidable (Within ifaces known) :=
  inferInstanceAs (Decidable (∀ iface ∈ ifaces.toList, known.has iface.ipAddr.toNat = true))

/-- The accepting side learns of interfaces of the connecting side only, and nobody changes one
that it has read. The connecting side's set is not changed once it is listed, and before that an
interface that the accepting side has learned of stays, as long as the connection does. -/
def settled (platform : Platform) : Lib.Machine Bootstrapping BootEvent :=
  (machine platform).restrict fun boot event => match event with
    | .connects acceptor => Within acceptor.remoteIfaces (boot.party false).localIfaces
    | .setLocal false ifaces => (boot.sent false).length ≤ 1 ∧
        (boot.closed false = false → Within (boot.party true).remoteIfaces ifaces)
    | .setRemote true ifaces => Within ifaces (boot.party false).localIfaces ∧
        ∀ iface ∈ (boot.party true).heard, ifaces.find iface.ipAddr.toNat =
          (boot.party true).remoteIfaces.find iface.ipAddr.toNat
    | _ => True

/-- The accepting side keeps what it hears, the connecting side has told what it has, and what the
accepting side knows of is an interface of the connecting side or was told by it. -/
structure Informed (boot : Bootstrapping) : Prop where
  kept : (boot.party true).stage ≠ .absent →
    (boot.party true).remoteIfaces.replaceAll (boot.party true).heard =
      (boot.party true).remoteIfaces
  listed : 1 < (boot.sent false).length →
    (boot.party false).told = (boot.party false).localIfaces.toList
  learned : boot.closed false = false ∨ 1 < (boot.sent false).length →
    ∀ iface ∈ (boot.party true).remoteIfaces.toList,
      (∃ other ∈ (boot.party true).heard, other.ipAddr = iface.ipAddr) ∨
        (boot.party false).localIfaces.has iface.ipAddr.toNat = true

/-- What the steps of `Run` leave alone. -/
structure Stores (before after : Bootstrapper) : Prop where
  localIfaces : after.localIfaces = before.localIfaces
  remoteIfaces : after.remoteIfaces = before.remoteIfaces
  heard : after.heard = before.heard
  told : after.told = before.told

theorem thrown_stores (speaker : Bootstrapper) : Stores speaker speaker.thrown := by
  rcases speaker.thrown_cases with ⟨status, -, -, eq⟩ | ⟨-, eq⟩ <;> rw [eq]
  · exact ⟨rfl, rfl, rfl, rfl⟩
  · exact ⟨rfl, rfl, rfl, rfl⟩

theorem onward_stores (speaker : Bootstrapper) : Stores speaker speaker.onward := by
  unfold onward
  split
  · exact ⟨rfl, rfl, rfl, rfl⟩
  · rcases speaker.succeed_cases with ⟨-, eq⟩ | ⟨-, eq⟩ <;> rw [eq]
    · exact ⟨rfl, rfl, rfl, rfl⟩
    · exact ⟨rfl, rfl, rfl, rfl⟩

theorem Informed.advances (informed : boot.Informed)
    (kept : side = true → after.remoteIfaces.replaceAll after.heard = after.remoteIfaces)
    (listed : side = false → 1 < (boot.sent false).length + said.length →
      after.told = after.localIfaces.toList)
    (open' : side = false → said = [] ∨ boot.closed false = false)
    (same : after.localIfaces = (boot.party side).localIfaces)
    (learned : side = true → (∀ other ∈ (boot.party true).heard, other ∈ after.heard) ∧
      ∀ iface ∈ after.remoteIfaces.toList, iface ∈ (boot.party true).remoteIfaces.toList ∨
        ∃ other ∈ after.heard, other.ipAddr = iface.ipAddr) :
    (boot.advance side said got after).Informed := by
  cases side with
  | false =>
      refine ⟨informed.kept, fun more => ?_, fun either iface member => ?_⟩
      · simp only [advance, Function.update_self, List.length_append] at more ⊢
        exact listed rfl more
      · have earlier : boot.closed false = false ∨ 1 < (boot.sent false).length := by
          simp only [advance, Function.update_self, List.length_append, Bool.or_eq_false_iff]
            at either
          rcases open' rfl with rfl | isOpen
          · exact either.imp (fun isOpen => isOpen.1.1) id
          · exact .inl isOpen
        simp only [advance, Function.update_self, same]
        exact informed.learned earlier iface member
  | true =>
      obtain ⟨stays, fresh⟩ := learned rfl
      refine ⟨fun _ => ?_, informed.listed, fun either iface member => ?_⟩
      · simp only [advance, Function.update_self]
        exact kept rfl
      · simp only [advance, Function.update_self] at member ⊢
        rcases fresh iface member with old | told
        · refine (informed.learned either iface old).imp_left ?_
          exact fun ⟨other, memberToo, named⟩ => ⟨other, stays other memberToo, named⟩
        · exact .inl told

/-- A step that stores nothing new. -/
theorem Informed.passes (informed : boot.Informed) (stores : Stores (boot.party side) after)
    (present : side = true → (boot.party true).stage ≠ .absent)
    (few : side = false → said = [] ∨ boot.closed false = false ∧
      (1 < (boot.sent false).length + said.length → after.told = after.localIfaces.toList)) :
    (boot.advance side said got after).Informed := by
  refine informed.advances ?_ ?_ (fun here => (few here).imp_right And.left) stores.localIfaces ?_
  · rintro rfl
    rw [stores.remoteIfaces, stores.heard]
    exact informed.kept (present rfl)
  · rintro rfl more
    rcases few rfl with rfl | ⟨-, told⟩
    · rw [stores.told, stores.localIfaces]
      exact informed.listed more
    · exact told more
  · rintro rfl
    rw [stores.heard, stores.remoteIfaces]
    exact ⟨fun _ member => member, fun _ member => .inl member⟩

theorem Informed.throws (informed : boot.Informed) {stage : BootStage}
    (here : (boot.party side).stage = stage) (present : stage ≠ .absent) :
    (boot.throws side).Informed :=
  informed.passes (thrown_stores _) (fun accepting => by subst accepting; rwa [here])
    fun _ => .inl rfl

/-- A hello is sent, or a list goes on. -/
theorem Informed.sends (informed : boot.Informed) {done : Bool} {message : BootMessage}
    {stage : BootStage} (here : (boot.party side).stage = stage) (present : stage ≠ .absent)
    (same : after.localIfaces = (boot.party side).localIfaces ∧
      after.remoteIfaces = (boot.party side).remoteIfaces ∧ after.heard = (boot.party side).heard)
    (listed : side = false → 1 < (boot.sent false).length + 1 →
      after.told = after.localIfaces.toList) : (boot.sends side done message after).Informed := by
  obtain ⟨localIfaces, remoteIfaces, heard⟩ := same
  unfold Bootstrapping.sends
  split_ifs with sent
  · refine informed.advances ?_ listed ?_ localIfaces ?_
    · rintro rfl
      rw [remoteIfaces, heard]
      exact informed.kept (by rwa [here])
    · rintro rfl
      exact .inr ((Bool.not_eq_true' _).mp (Bool.and_eq_true_iff.mp sent).2)
    · rintro rfl
      rw [remoteIfaces, heard]
      exact ⟨fun _ member => member, fun _ member => .inl member⟩
  · exact informed.throws here present

/-- A message is read in place of an interface. -/
theorem Informed.hearsListener (informed : boot.Informed) {message : BootMessage}
    (stage : (boot.party side).stage = .recvListeners) :
    (recvRemoteListener platform boot side message).Informed := by
  have present : side = true → (boot.party true).stage ≠ .absent := by
    rintro rfl
    rw [stage]
    exact BootStage.noConfusion
  cases message with
  | hello listenPort num strategy => exact informed.throws stage BootStage.noConfusion
  | newInterface ipAddr bandwidthDown bandwidthUp rtt type =>
      unfold recvRemoteListener
      dsimp only
      by_cases zero : ipAddr = 0
      · rw [if_pos zero]
        exact informed.passes (onward_stores _) present fun _ => .inl rfl
      · rw [if_neg zero]
        refine informed.advances ?_ ?_ (fun _ => .inl rfl) rfl ?_
        · rintro rfl
          exact Lib.KeyedSet.replaceAll_concat_replace (informed.kept (present rfl))
        · rintro rfl more
          exact informed.listed more
        · rintro rfl
          refine ⟨fun _ member => List.mem_append_left _ member, fun iface member => ?_⟩
          rcases Lib.KeyedSet.mem_of_mem_place member with rfl | old
          · exact .inr ⟨_, List.mem_append_right _ (List.mem_singleton_self _), rfl⟩
          · exact .inl (List.mem_filter.mp old).1

theorem Informed.step_noSocket {next : Bootstrapping} (informed : boot.Informed)
    (moved : step platform boot .noSocket = some next) : next.Informed := by
  unfold step at moved
  dsimp only at moved
  split_ifs at moved
  cases moved
  exact informed.passes ⟨rfl, rfl, rfl, rfl⟩ nofun fun _ => .inl rfl

theorem Informed.step_connectFails {next : Bootstrapping} (informed : boot.Informed)
    (moved : step platform boot .connectFails = some next) : next.Informed := by
  unfold step at moved
  dsimp only at moved
  split_ifs at moved
  cases moved
  have stores := thrown_stores { boot.party false with status := .refused }
  exact informed.passes ⟨stores.1, stores.2, stores.3, stores.4⟩ nofun fun _ => .inl rfl

theorem Informed.step_connects {next : Bootstrapping} {acceptor : Bootstrapper}
    (permitted : (settled platform).permitted boot (.connects acceptor))
    (moved : step platform boot (.connects acceptor) = some next) : next.Informed := by
  unfold step at moved
  dsimp only at moved
  split_ifs at moved
  cases moved
  obtain ⟨fresh, within⟩ := permitted
  have silent : acceptor.heard = [] := fresh.2.2.2.2.2.1
  refine ⟨fun _ => ?_, nofun, fun _ iface member => .inr (within iface member)⟩
  simp only [if_true, silent]
  rfl

theorem Informed.step_send {next : Bootstrapping} {done : Bool} (informed : boot.Informed)
    (sound : boot.Sound platform) (moved : step platform boot (.send side done) = some next) :
    next.Informed := by
  unfold step at moved
  dsimp only at moved
  split at moved
  case h_1 stage =>
    cases moved
    have stores := onward_stores
      { boot.party side with offered := (boot.party side).redundancyStrategy }
    refine informed.sends stage BootStage.noConfusion ⟨stores.1, stores.2, stores.3⟩ ?_
    rintro rfl more
    have placed := (sound.speaks false).placed
    unfold Placed at placed
    simp only [stage] at placed
    omega
  case h_2 left stage =>
    have listing : side = false → (if left.isNone then (boot.party side).localIfaces.toList
        else (boot.party side).told) = (boot.party side).localIfaces.toList := by
      rintro rfl
      cases left with
      | none => rfl
      | some left =>
          obtain ⟨-, first⟩ := sound.listing stage
          exact informed.listed (Nat.lt_of_not_le fun few => nomatch first.mp few)
    split at moved
    case h_1 => cases moved
    case h_2 last only =>
      cases moved
      have stores := onward_stores { boot.party side with told :=
        if left.isNone then (boot.party side).localIfaces.toList else (boot.party side).told }
      refine informed.sends stage BootStage.noConfusion ⟨stores.1, stores.2, stores.3⟩
        fun connecting _ => ?_
      rw [stores.told, stores.localIfaces]
      exact listing connecting
    case h_3 iface rest more list =>
      cases moved
      exact informed.sends stage BootStage.noConfusion ⟨rfl, rfl, rfl⟩ fun connecting _ =>
        listing connecting
  case h_3 => cases moved

theorem Informed.step_recv {next : Bootstrapping} {whole : Bool} (informed : boot.Informed)
    (moved : step platform boot (.recv side whole) = some next) : next.Informed := by
  unfold step at moved
  dsimp only at moved
  split at moved
  case h_1 message stage arriving =>
    cases moved
    split_ifs
    · cases message with
      | newInterface ipAddr bandwidthDown bandwidthUp rtt type =>
          exact informed.throws stage BootStage.noConfusion
      | hello listenPort num strategy =>
          have stores := onward_stores
            (greet side listenPort (toInt (platform.host strategy)) (boot.party side))
          refine informed.passes ⟨stores.1, stores.2, stores.3, stores.4⟩ ?_ fun _ => .inl rfl
          rintro rfl
          rw [stage]
          exact BootStage.noConfusion
    · exact informed.throws stage BootStage.noConfusion
  case h_2 message stage arriving =>
    cases moved
    split_ifs
    · exact informed.hearsListener stage
    · exact informed.throws stage BootStage.noConfusion
  case h_3 stage _ =>
    split_ifs at moved
    cases moved
    exact informed.throws stage BootStage.noConfusion
  case h_4 stage _ =>
    split_ifs at moved
    cases moved
    exact informed.throws stage BootStage.noConfusion
  case h_5 => cases moved

theorem Informed.step_startup {next : Bootstrapping} {connected : Bool}
    (informed : boot.Informed)
    (moved : step platform boot (.startup side connected) = some next) : next.Informed := by
  unfold step at moved
  dsimp only at moved
  split_ifs at moved with stage started
  · cases moved
    have stores := onward_stores { boot.party side with started := true }
    refine informed.passes ⟨stores.1, stores.2, stores.3, stores.4⟩ ?_ fun _ => .inl rfl
    rintro rfl
    rw [stage]
    exact BootStage.noConfusion
  · cases moved
    exact informed.throws stage BootStage.noConfusion

theorem Informed.step_restart {next : Bootstrapping} (informed : boot.Informed)
    (moved : step platform boot .restart = some next) : next.Informed := by
  unfold step at moved
  dsimp only at moved
  split_ifs at moved
  · cases moved
    exact informed
  · cases moved
    refine ⟨informed.kept, informed.listed, fun either => informed.learned (.inr ?_)⟩
    exact either.resolve_left Bool.noConfusion

theorem Informed.step_stop {next : Bootstrapping} (informed : boot.Informed)
    (moved : step platform boot (.stop side) = some next) : next.Informed := by
  cases moved
  refine ⟨informed.kept, informed.listed, fun either => informed.learned ?_⟩
  cases side with
  | false => exact .inr (either.resolve_left Bool.noConfusion)
  | true => exact either

theorem Informed.step_setLocal {next : Bootstrapping} {ifaces : NetInterfaceSet}
    (informed : boot.Informed)
    (permitted : (settled platform).permitted boot (.setLocal side ifaces))
    (moved : step platform boot (.setLocal side ifaces) = some next) : next.Informed := by
  unfold step at moved
  dsimp only at moved
  split at moved
  · cases moved
  · cases moved
    cases side with
    | true => exact ⟨informed.kept, informed.listed, informed.learned⟩
    | false =>
        obtain ⟨-, few, within⟩ := permitted
        refine ⟨informed.kept, fun more => absurd more (Nat.not_lt_of_le few), fun either => ?_⟩
        have isOpen := either.resolve_right (Nat.not_lt_of_le few)
        exact fun iface member => .inr (within isOpen iface member)

theorem Informed.step_setRemote {next : Bootstrapping} {ifaces : NetInterfaceSet}
    (informed : boot.Informed)
    (permitted : (settled platform).permitted boot (.setRemote side ifaces))
    (moved : step platform boot (.setRemote side ifaces) = some next) : next.Informed := by
  cases moved
  cases side with
  | false => exact ⟨informed.kept, informed.listed, informed.learned⟩
  | true =>
      obtain ⟨-, within, agree⟩ := permitted
      refine ⟨fun present => ?_, informed.listed, fun _ iface member => .inr (within iface member)⟩
      exact Lib.KeyedSet.replaceAll_eq_of_agree (informed.kept present) agree

theorem Informed.step_setStrategy {next : Bootstrapping} {type : Int} (informed : boot.Informed)
    (permitted : (settled platform).permitted boot (.setStrategy side type))
    (moved : step platform boot (.setStrategy side type) = some next) : next.Informed := by
  cases moved
  obtain ⟨⟨rfl, -⟩, -⟩ := permitted
  exact ⟨informed.kept, informed.listed, informed.learned⟩

theorem informed_step {next : Bootstrapping} {event : BootEvent} (sound : boot.Sound platform)
    (informed : boot.Informed) (permitted : (settled platform).permitted boot event)
    (moved : step platform boot event = some next) : next.Informed := by
  cases event with
  | noSocket => exact informed.step_noSocket moved
  | connectFails => exact informed.step_connectFails moved
  | connects acceptor => exact .step_connects permitted moved
  | send side done => exact informed.step_send sound moved
  | recv side whole => exact informed.step_recv moved
  | startup side connected => exact informed.step_startup moved
  | restart => exact informed.step_restart moved
  | stop side => exact informed.step_stop moved
  | setLocal side ifaces => exact informed.step_setLocal permitted moved
  | setRemote side ifaces => exact informed.step_setRemote permitted moved
  | setStrategy side type => exact informed.step_setStrategy permitted moved

/-- When the accepting side is successful it knows the interfaces of the connecting side, with
their figures narrowed, if they all have an address and nobody has changed them since they were
listed and read. -/
theorem interfaces_known (reached : (settled platform).Reachable boot)
    (succeeded : (boot.party true).status = .succeeded)
    (proper : ∀ iface ∈ (boot.party false).localIfaces.toList, iface.ipAddr ≠ 0) :
    (boot.party true).remoteIfaces.toList =
      (boot.party false).localIfaces.toList.map NetInterface.heard := by
  have sound := sound_of_reachable reached.of_restrict
  have informed : boot.Informed := by
    refine reached.induct (fun first start => ?_) fun before after event earlier informed permitted
      moved => informed_step (sound_of_reachable earlier.of_restrict) informed permitted moved
    obtain ⟨-, -, -, -, absent, -, -, -, closed, nothing⟩ := start
    have silent : ¬1 < (first.sent false).length := by
      rw [(nothing false).1]
      exact Nat.not_lt_zero _
    refine ⟨fun present => (present absent).elim, fun more => absurd more silent, fun either => ?_⟩
    rcases either with isOpen | more
    · cases isOpen.symm.trans closed
    · exact absurd more silent
  have listened : Listened true (boot.party true) (boot.party false) (boot.received true) :=
    sound.listened succeeded
  have present : (boot.party true).stage ≠ .absent := by
    intro absent
    have placed := (sound.speaks true).placed
    unfold Placed at placed
    simp only [absent] at placed
    cases placed.2.1.symm.trans succeeded
  have more : 1 < (boot.sent false).length := listened.several.trans (sound.within true)
  have told := informed.listed more
  have all : (boot.party false).localIfaces.toList.takeWhile (fun iface => iface.ipAddr ≠ 0) =
      (boot.party false).localIfaces.toList :=
    List.takeWhile_eq_self_iff.mpr fun iface member => decide_eq_true (proper iface member)
  have sorted : ((boot.party false).localIfaces.toList.map NetInterface.heard).Pairwise
      fun first second => first.ipAddr.toNat < second.ipAddr.toNat :=
    List.pairwise_map.mpr (boot.party false).localIfaces.sorted
  have heard : (boot.party true).heard =
      (boot.party false).localIfaces.toList.map NetInterface.heard := by
    rw [listened.heard, told, all]
  have only : (boot.party true).remoteIfaces = KeyedSet.empty.replaceAll (boot.party true).heard := by
    refine Lib.KeyedSet.eq_replaceAll_empty (informed.kept present) fun iface member => ?_
    rcases informed.learned (.inr more) iface member with ⟨other, inList, named⟩ | taken
    · exact ⟨other, inList, congrArg UInt32.toNat named⟩
    · obtain ⟨other, inList, named⟩ := Lib.KeyedSet.has_iff.mp taken
      exact ⟨other.heard, heard ▸ List.mem_map_of_mem inList, named⟩
  rw [only, heard, Lib.KeyedSet.replaceAll_empty sorted]

/-! ### A run -/

instance (boot : Bootstrapping) (event : BootEvent) :
    Decidable ((settled platform).permitted boot event) :=
  match event with
  | .connects acceptor => inferInstanceAs (Decidable
      (acceptor.Fresh ∧ Within acceptor.remoteIfaces (boot.party false).localIfaces))
  | .setStrategy side type =>
      inferInstanceAs (Decidable ((side = false ∧ StrategyType type) ∧ True))
  | .setLocal false ifaces => inferInstanceAs (Decidable (True ∧ (boot.sent false).length ≤ 1 ∧
      (boot.closed false = false → Within (boot.party true).remoteIfaces ifaces)))
  | .setRemote true ifaces => inferInstanceAs (Decidable
      (True ∧ Within ifaces (boot.party false).localIfaces ∧
        ∀ iface ∈ (boot.party true).heard, ifaces.find iface.ipAddr.toNat =
          (boot.party true).remoteIfaces.find iface.ipAddr.toNat))
  | .noSocket | .connectFails | .send _ _ | .recv _ _ | .startup _ _ | .restart | .stop _ |
    .setLocal true _ | .setRemote false _ => isTrue ⟨trivial, trivial⟩

/-- A multisocket with one interface. -/
def single (accepts : Bool) (address : UInt32) (listenPort : UInt16) (type : Int) : Bootstrapper where
  localIfaces := Lib.KeyedSet.empty.insert ⟨address, 1250000, 2 ^ 32 + 7, 20, 1⟩
  remoteIfaces := .empty
  listenPort := listenPort
  remoteListenerPort := 0
  redundancyStrategy := type
  accepts := accepts
  stage := if accepts then .recvHello else .connecting
  status := .inProgress
  retry := false
  started := false
  offered := 0
  told := []
  heard := []

/-- A multisocket that is about to connect. -/
def connecting : Bootstrapping where
  party side := if side then { single true 0 0 0 with stage := .absent } else single false 3 40000 1
  sent _ := []
  received _ := 0
  closed _ := true

theorem connecting_initial : (settled .lp64).initial connecting :=
  ⟨rfl, rfl, rfl, by decide, rfl, rfl, rfl, rfl, rfl, fun _ => ⟨rfl, rfl⟩⟩

/-- The connection is interrupted once, and the second attempt is successful. In it a csocket tells
the accepting side of an interface before that is listed. -/
def bootstrapEvents : List BootEvent :=
  [.connects (single true 5 50000 0), .send false true, .restart, .recv false true,
    .connects (single true 5 50000 0), .send false true, .recv true true, .send true true,
    .recv false true, .startup false true,
    .setRemote true (Lib.KeyedSet.empty.insert ⟨3, 1, 1, 1, 0⟩), .send false true, .send false true, .recv true true,
    .recv true true, .startup true true, .send true true, .send true true, .recv false true,
    .recv false true]

set_option maxRecDepth 2000 in
theorem bootstrap_run : ((settled .lp64).run connecting bootstrapEvents).any (fun boot =>
    decide ((boot.party true).status = .succeeded ∧ (boot.party false).status = .succeeded ∧
      (∀ iface ∈ (boot.party false).localIfaces.toList, iface.ipAddr ≠ 0) ∧
        (boot.party true).told ≠ [])) = true := by
  decide +kernel

set_option maxRecDepth 2000 in
theorem halfway_run : ((settled .lp64).run connecting (bootstrapEvents.take 12)).any (fun boot =>
    decide ((∀ side, boot.closed side = false) ∧ (boot.party false).retry = false ∧
      (∀ side, ∀ iface ∈ (boot.party side).localIfaces.toList ++ (boot.party side).told,
        iface.ipAddr ≠ 0) ∧ (boot.party false).told ≠ [])) = true := by
  decide +kernel

/-- A state that a list of events leads to is reached. -/
theorem reached_of_run {events : List BootEvent} {holds : Bootstrapping → Prop}
    [DecidablePred holds] (ran : ((settled .lp64).run connecting events).any
      (fun boot => decide (holds boot)) = true) :
    ∃ boot, (settled .lp64).Reachable boot ∧ holds boot := by
  obtain ⟨boot, run, known⟩ := (Option.any_eq_true _ _).mp ran
  exact ⟨boot, .run (.initial connecting_initial) run, of_decide_eq_true known⟩

theorem agreement_restarted : ∃ boot : Bootstrapping,
    (boot.party true).told ≠ [] ∧ (boot.party false).heard = ((boot.party true).told.takeWhile
      fun iface => iface.ipAddr ≠ 0).map NetInterface.heard := by
  obtain ⟨boot, reached, -, connected, -, told⟩ := reached_of_run bootstrap_run
  obtain ⟨-, -, both⟩ := agreement reached.of_restrict
  exact ⟨boot, told, (both false connected).2.2.1⟩

theorem completes_halfway : ∃ boot last : Bootstrapping, (boot.party false).told ≠ [] ∧
    (machine .lp64).Leads boot last ∧ ∀ side, (last.party side).status = .succeeded := by
  obtain ⟨boot, reached, intact, calm, proper, told⟩ := reached_of_run halfway_run
  obtain ⟨last, leads, succeeded⟩ := completes reached.of_restrict intact calm proper
  exact ⟨boot, last, told, leads, succeeded⟩

theorem interfaces_known_restarted : ∃ boot : Bootstrapping,
    (settled .lp64).Reachable boot ∧ (boot.party true).status = .succeeded ∧ (boot.party true).remoteIfaces.toList =
      (boot.party false).localIfaces.toList.map NetInterface.heard := by
  obtain ⟨boot, reached, accepted, -, proper, -⟩ := reached_of_run bootstrap_run
  exact ⟨boot, reached, accepted, interfaces_known reached accepted proper⟩

end Bootstrapping

end Libcmm
