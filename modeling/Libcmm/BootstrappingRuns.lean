import Libcmm.Bootstrapping
import Mathlib.Data.List.TakeWhile

/-! # What a bootstrapping exchanges

What a bootstrapper has said so far is a prefix of what it has to say (`Bootstrapper.script`),
and how long the prefix is, is known from its stage. The other side has heard a prefix of
that, so its stage says what it knows. Both hold in every run (`Bootstrapping.sound_of_reachable`),
however often the connecting side starts again.
-/

namespace Libcmm

open Lib

variable {platform : Platform}

/-- The interface that arrives for one that is listed: its figures are sent as 32-bit words. -/
def NetInterface.heard (iface : NetInterface) : NetInterface :=
  ⟨iface.ipAddr, iface.bandwidthDown % 2 ^ 32, iface.bandwidthUp % 2 ^ 32, iface.rtt % 2 ^ 32,
    toInt iface.type⟩

namespace Bootstrapper

/-- What a bootstrapper says, if nothing fails. -/
def script (platform : Platform) (speaker : Bootstrapper) (numIfaces : UInt32) : List BootMessage :=
  .hello speaker.listenPort numIfaces (platform.net speaker.offered) ::
    (speaker.told ++ [sentinel]).map (Bootstrapping.listenerMessage platform)

/-- How much a bootstrapper has said at its stage. -/
def Placed (side : Bool) (speaker : Bootstrapper) (count : Nat) : Prop :=
  match speaker.stage with
  | .absent => side = true ∧ speaker.status = .inProgress ∧ count = 0
  | .connecting => side = false ∧ speaker.accepts = false ∧ speaker.status = .inProgress
  | .sendHello => speaker.accepts = side ∧ speaker.status = .inProgress ∧ count = 0
  | .recvHello =>
      speaker.accepts = side ∧ speaker.status = .inProgress ∧ count = (if side then 0 else 1) ∨
        side = false ∧ speaker.accepts = true ∧ speaker.status = .succeeded ∧
          count = speaker.told.length + 2
  | .startup => speaker.accepts = side ∧ speaker.status = .inProgress ∧ count = 1
  | .sendListeners none =>
      speaker.accepts = side ∧ speaker.status = .inProgress ∧ speaker.started = true ∧ count = 1
  | .sendListeners (some left) =>
      speaker.accepts = side ∧ speaker.status = .inProgress ∧ speaker.started = true ∧ 1 < count ∧
        left ≠ [] ∧ left = (speaker.told ++ [sentinel]).drop (count - 1)
  | .recvListeners =>
      speaker.accepts = side ∧ speaker.status = .inProgress ∧
        count = if side then 1 else speaker.told.length + 2
  | .ended =>
      (speaker.status = .succeeded → count = speaker.told.length + 2) ∧
        (side = true → count = speaker.told.length + 2 → speaker.status = .succeeded)

/-- The accepting side has more to say until it ends. -/
theorem Placed.short {speaker : Bootstrapper} {count : Nat} (placed : speaker.Placed true count)
    (going : speaker.stage ≠ .ended) : count ≠ speaker.told.length + 2 := by
  unfold Placed at placed
  split at placed
  · omega
  · exact nomatch placed.1
  · omega
  · rcases placed with ⟨-, -, none'⟩ | ⟨wrong, -⟩
    · rw [if_pos rfl] at none'
      omega
    · cases wrong
  · omega
  · omega
  · obtain ⟨-, -, -, -, some', left⟩ := placed
    intro all
    rw [all] at left
    refine some' (left.trans (List.drop_eq_nil_of_le ?_))
    rw [List.length_append, List.length_singleton]
    omega
  · obtain ⟨-, -, one⟩ := placed
    rw [if_pos rfl] at one
    omega
  · exact absurd ‹_› going

/-- What a side has said fits its stage. -/
structure Speaks (platform : Platform) (side : Bool) (speaker : Bootstrapper)
    (sent : List BootMessage) : Prop where
  said : ∃ numIfaces, sent <+: speaker.script platform numIfaces
  placed : speaker.Placed side sent.length
  began : 1 < sent.length → speaker.started = true
  range : side = false → sent ≠ [] → StrategyType speaker.offered

/-- A side knows what the hello of the other one says, and some of its interfaces. -/
structure Greeted (side : Bool) (hearer speaker : Bootstrapper) (count : Nat) : Prop where
  some' : 1 ≤ count
  port : hearer.remoteListenerPort = speaker.listenPort
  strategy : side = true → hearer.redundancyStrategy = speaker.offered
  heard : hearer.heard = (speaker.told.take (count - 1)).map NetInterface.heard
  proper : ∀ iface ∈ speaker.told.take (count - 1), iface.ipAddr ≠ 0
  going : count ≤ speaker.told.length + 1

/-- A side has heard what the other one lists. An interface without address ends the list too. -/
structure Listened (side : Bool) (hearer speaker : Bootstrapper) (count : Nat) : Prop where
  several : 2 ≤ count
  port : hearer.remoteListenerPort = speaker.listenPort
  strategy : side = true → hearer.redundancyStrategy = speaker.offered
  heard : hearer.heard =
    (speaker.told.takeWhile fun iface => iface.ipAddr ≠ 0).map NetInterface.heard
  whole : count = speaker.told.length + 2 ∨ ∃ iface ∈ speaker.told, iface.ipAddr = 0

/-- How much of what the other side says a bootstrapper has heard at its stage. -/
inductive Knowledge where
  | unsure
  | nothing
  | greeting
  | list

/-- The knowledge at a stage. The connecting side lists its interfaces before it listens. -/
def Knowledge.at (side : Bool) : BootStage → Knowledge
  | .absent | .connecting | .ended => .unsure
  | .recvHello => .nothing
  | .sendHello => if side then .greeting else .nothing
  | .recvListeners => .greeting
  | .startup | .sendListeners _ => if side then .list else .greeting

/-- What a side knows when it has received `count` messages. -/
def Knowledge.Holds (side : Bool) (hearer speaker : Bootstrapper) (count : Nat) : Knowledge → Prop
  | .unsure => True
  | .nothing => count = 0 ∧ hearer.heard = []
  | .greeting => Greeted side hearer speaker count
  | .list => Listened side hearer speaker count

/-- A side forgets nothing. -/
theorem Knowledge.Holds.same {side : Bool} {before after speaker : Bootstrapper} {count : Nat}
    {knowledge : Knowledge} (holds : knowledge.Holds side before speaker count)
    (port : after.remoteListenerPort = before.remoteListenerPort)
    (strategy : side = true → after.redundancyStrategy = before.redundancyStrategy)
    (heard : after.heard = before.heard) : knowledge.Holds side after speaker count := by
  cases knowledge with
  | unsure => trivial
  | nothing => exact ⟨holds.1, heard.trans holds.2⟩
  | greeting =>
      obtain ⟨some', port', strategy', heard', proper, going⟩ :=
        (holds : Greeted side before speaker count)
      exact ⟨some', port.trans port', fun accepting =>
        (strategy accepting).trans (strategy' accepting), heard.trans heard', proper, going⟩
  | list =>
      obtain ⟨several, port', strategy', heard', whole⟩ :=
        (holds : Listened side before speaker count)
      exact ⟨several, port.trans port', fun accepting =>
        (strategy accepting).trans (strategy' accepting), heard.trans heard', whole⟩

/-- What a side has received fits its stage, and a side that was successful knows all. -/
def Hears (side : Bool) (hearer speaker : Bootstrapper) (count : Nat) : Prop :=
  Knowledge.Holds side hearer speaker count
    (if hearer.status = .succeeded then .list else Knowledge.at side hearer.stage)

/-- What a bootstrapper has said stays so. -/
structure Steady (before after : Bootstrapper) (count : Nat) : Prop where
  port : after.listenPort = before.listenPort
  offered : 1 ≤ count → after.offered = before.offered
  told : 2 ≤ count → after.told = before.told

variable {side : Bool} {hearer before after : Bootstrapper} {sent : List BootMessage}
  {count heardCount : Nat}

theorem Greeted.steady (greeted : Greeted side hearer before heardCount)
    (steady : Steady before after count) (within : heardCount ≤ count) :
    Greeted side hearer after heardCount := by
  have some' := greeted.some'
  have listed : after.told.take (heardCount - 1) = before.told.take (heardCount - 1) := by
    by_cases more : 2 ≤ heardCount
    · rw [steady.told (more.trans within)]
    · have none' : heardCount - 1 = 0 := by omega
      rw [none', List.take_zero, List.take_zero]
  exact
    { some' := some'
      port := greeted.port.trans steady.port.symm
      strategy := fun accepting =>
        (greeted.strategy accepting).trans (steady.offered (some'.trans within)).symm
      heard := by rw [listed, greeted.heard]
      proper := by
        rw [listed]
        exact greeted.proper
      going := by
        by_cases more : 2 ≤ heardCount
        · rw [steady.told (more.trans within)]
          exact greeted.going
        · omega }

theorem Listened.steady (listened : Listened side hearer before heardCount)
    (steady : Steady before after count) (within : heardCount ≤ count) :
    Listened side hearer after heardCount := by
  have told := steady.told (listened.several.trans within)
  exact
    { several := listened.several
      port := listened.port.trans steady.port.symm
      strategy := fun accepting => (listened.strategy accepting).trans
        (steady.offered ((Nat.le_succ 1).trans (listened.several.trans within))).symm
      heard := by rw [told, listened.heard]
      whole := by
        rw [told]
        exact listened.whole }

/-- What a side has heard stays true when the other side goes on. -/
theorem Hears.steady (hears : Hears side hearer before heardCount)
    (steady : Steady before after count) (within : heardCount ≤ count) :
    Hears side hearer after heardCount := by
  unfold Hears at hears ⊢
  generalize (if hearer.status = .succeeded then .list else Knowledge.at side hearer.stage) =
    knowledge at hears ⊢
  cases knowledge with
  | unsure => trivial
  | nothing => exact hears
  | greeting => exact Greeted.steady hears steady within
  | list => exact Listened.steady hears steady within

/-- While a bootstrapper is at work its stage says what it knows. -/
theorem Hears.holds {speaker : Bootstrapper} {stage : BootStage}
    (hears : Hears side hearer speaker count) (status : hearer.status = .inProgress)
    (here : hearer.stage = stage) :
    Knowledge.Holds side hearer speaker count (Knowledge.at side stage) := by
  unfold Hears at hears
  rwa [if_neg (by rw [status]; exact BootStatus.noConfusion), here] at hears

theorem hears_going {speaker : Bootstrapper} {stage : BootStage} (status : hearer.status = .inProgress)
    (here : hearer.stage = stage)
    (holds : Knowledge.Holds side hearer speaker count (Knowledge.at side stage)) :
    Hears side hearer speaker count := by
  unfold Hears
  rwa [if_neg (by rw [status]; exact BootStatus.noConfusion), here]

theorem hears_succeeded {speaker : Bootstrapper} (status : hearer.status = .succeeded) :
    Hears side hearer speaker count ↔ Listened side hearer speaker count := by
  unfold Hears
  rw [if_pos status]
  rfl

theorem hears_failed {speaker : Bootstrapper} (status : hearer.status ≠ .succeeded)
    (stopped : hearer.stage = .ended ∨ hearer.stage = .connecting) :
    Hears side hearer speaker count := by
  unfold Hears
  rw [if_neg status]
  rcases stopped with stopped | stopped <;> rw [stopped] <;> trivial

/-- A step that says nothing. -/
theorem Speaks.quiet {speaker : Bootstrapper} (speaks : speaker.Speaks platform side sent)
    (same : after.script platform = speaker.script platform) (offered : after.offered = speaker.offered)
    (started : speaker.started = true → after.started = true)
    (placed : after.Placed side sent.length) : after.Speaks platform side sent where
  said := same ▸ speaks.said
  placed := placed
  began := fun more => started (speaks.began more)
  range := offered ▸ speaks.range

/-- A bootstrapper that fails ends without success, or tries again. -/
theorem thrown_cases (speaker : Bootstrapper) :
    (∃ status, status ≠ .succeeded ∧ speaker.retry = false ∧
      speaker.thrown = { speaker with stage := .ended, status := status }) ∨
    speaker.retry = true ∧ speaker.thrown = { speaker with
      stage := .connecting, accepts := false, retry := false, status := .inProgress } := by
  unfold thrown
  cases retry : speaker.retry with
  | true => exact .inr ⟨rfl, rfl⟩
  | false =>
      refine .inl ⟨if speaker.status = .inProgress then .inProgress else .refused, ?_, rfl, rfl⟩
      split_ifs <;> exact BootStatus.noConfusion

theorem thrown_failed (speaker : Bootstrapper) : speaker.thrown.status ≠ .succeeded := by
  rcases speaker.thrown_cases with ⟨status, failed, -, eq⟩ | ⟨-, eq⟩ <;> rw [eq]
  · exact failed
  · exact BootStatus.noConfusion

theorem thrown_placed {speaker : Bootstrapper} (again : speaker.retry = true → side = false)
    (short : side = true → count ≠ speaker.told.length + 2) :
    speaker.thrown.Placed side count := by
  rcases speaker.thrown_cases with ⟨status, failed, -, eq⟩ | ⟨retry, eq⟩ <;> rw [eq]
  · exact ⟨fun succeeded => (failed succeeded).elim, fun accepting all => (short accepting all).elim⟩
  · exact ⟨again retry, rfl, rfl⟩

theorem thrown_shut (speaker : Bootstrapper) :
    speaker.thrown.stage = .ended ∨ speaker.thrown.stage = .connecting := by
  rcases speaker.thrown_cases with ⟨status, -, -, eq⟩ | ⟨-, eq⟩ <;> rw [eq]
  · exact .inl rfl
  · exact .inr rfl

/-- An exception leaves alone what was said and heard. -/
theorem thrown_kept (speaker : Bootstrapper) :
    speaker.thrown.listenPort = speaker.listenPort ∧ speaker.thrown.offered = speaker.offered ∧
      speaker.thrown.told = speaker.told ∧ speaker.thrown.started = speaker.started ∧
      speaker.thrown.redundancyStrategy = speaker.redundancyStrategy ∧
      speaker.thrown.retry = false := by
  rcases speaker.thrown_cases with ⟨status, -, retry, eq⟩ | ⟨-, eq⟩ <;> rw [eq]
  · exact ⟨rfl, rfl, rfl, rfl, rfl, retry⟩
  · exact ⟨rfl, rfl, rfl, rfl, rfl, rfl⟩

/-- A bootstrapper that is through ends, or starts again with the same socket. -/
theorem succeed_cases (speaker : Bootstrapper) :
    speaker.retry = false ∧
      speaker.succeed = { speaker with stage := .ended, status := .succeeded } ∨
    speaker.retry = true ∧ speaker.succeed = { speaker with
      stage := .recvHello, accepts := true, retry := false, status := .succeeded } := by
  unfold succeed
  cases speaker.retry with
  | true => exact .inr ⟨rfl, rfl⟩
  | false => exact .inl ⟨rfl, rfl⟩

theorem succeed_status (speaker : Bootstrapper) : speaker.succeed.status = .succeeded := by
  rcases speaker.succeed_cases with ⟨-, eq⟩ | ⟨-, eq⟩ <;> rw [eq]

theorem succeed_placed {speaker : Bootstrapper} (again : speaker.retry = true → side = false)
    (all : count = speaker.told.length + 2) : speaker.succeed.Placed side count := by
  rcases speaker.succeed_cases with ⟨-, eq⟩ | ⟨retry, eq⟩ <;> rw [eq]
  · exact ⟨fun _ => all, fun _ _ => rfl⟩
  · exact .inr ⟨again retry, rfl, rfl, all⟩

/-- The end leaves alone what was said and heard. -/
theorem succeed_kept (speaker : Bootstrapper) :
    speaker.succeed.listenPort = speaker.listenPort ∧ speaker.succeed.offered = speaker.offered ∧
      speaker.succeed.told = speaker.told ∧ speaker.succeed.started = speaker.started ∧
      speaker.succeed.redundancyStrategy = speaker.redundancyStrategy ∧
      speaker.succeed.remoteListenerPort = speaker.remoteListenerPort ∧
      speaker.succeed.heard = speaker.heard ∧ speaker.succeed.retry = false := by
  rcases speaker.succeed_cases with ⟨retry, eq⟩ | ⟨-, eq⟩ <;> rw [eq]
  · exact ⟨rfl, rfl, rfl, rfl, rfl, rfl, rfl, retry⟩
  · exact ⟨rfl, rfl, rfl, rfl, rfl, rfl, rfl, rfl⟩

/-- The step from a stage to the one behind it. -/
theorem onward_some (speaker : Bootstrapper) {stage next' : BootStage}
    (accepts : speaker.accepts = side) (here : speaker.stage = stage)
    (follows : next side stage = some next') : speaker.onward = { speaker with stage := next' } := by
  subst accepts here
  unfold onward
  rw [follows]

/-- The last step. -/
theorem onward_none (speaker : Bootstrapper) {stage : BootStage} (accepts : speaker.accepts = side)
    (here : speaker.stage = stage) (follows : next side stage = none) :
    speaker.onward = speaker.succeed := by
  subst accepts here
  unfold onward
  rw [follows]

/-- What a bootstrapper that lists its interfaces says next. -/
theorem Speaks.listing {speaker : Bootstrapper} {left : Option (List NetInterface)}
    {told : List NetInterface} (speaks : speaker.Speaks platform side sent)
    (stage : speaker.stage = .sendListeners left)
    (listed : told = if left.isNone then speaker.localIfaces.toList else speaker.told) :
    speaker.accepts = side ∧ speaker.status = .inProgress ∧ speaker.started = true ∧
      1 ≤ sent.length ∧ (2 ≤ sent.length → told = speaker.told) ∧
      left.getD (speaker.localIfaces.toList ++ [sentinel]) =
        (told ++ [sentinel]).drop (sent.length - 1) ∧
      ∃ numIfaces, sent <+: { speaker with told := told }.script platform numIfaces := by
  have placed := speaks.placed
  obtain ⟨numIfaces, said⟩ := speaks.said
  unfold Placed at placed
  cases left with
  | none =>
      simp only [stage] at placed
      obtain ⟨accepts, status, started, one⟩ := placed
      refine ⟨accepts, status, started, one.ge, ?_, ?_, numIfaces, ?_⟩
      · omega
      · rw [listed, one]
        rfl
      · obtain ⟨hello, rfl⟩ := List.length_eq_one_iff.mp one
        obtain ⟨rest, eq⟩ := said
        obtain ⟨rfl, -⟩ := List.cons.inj eq
        exact ⟨_, rfl⟩
  | some left =>
      simp only [stage] at placed
      obtain ⟨accepts, status, started, more, -, eq⟩ := placed
      subst listed
      exact ⟨accepts, status, started, more.le, fun _ => rfl, eq, numIfaces, said⟩

theorem prefix_concat {α : Type*} {first whole rest : List α} {next : α} (said : first <+: whole)
    (onward : whole.drop first.length = next :: rest) : first ++ [next] <+: whole := by
  obtain ⟨others, rfl⟩ := said
  rw [List.drop_left] at onward
  subst onward
  exact ⟨rest, by rw [List.append_assoc]; rfl⟩

end Bootstrapper

namespace Bootstrapping

open Bootstrapper

/-- The two sides in every state. -/
structure Sound (platform : Platform) (boot : Bootstrapping) : Prop where
  speaks : ∀ side, (boot.party side).Speaks platform side (boot.sent side)
  hears : ∀ side, (boot.party side).Hears side (boot.party !side) (boot.received side)
  within : ∀ side, boot.received side ≤ (boot.sent !side).length
  shut : ∀ side, (boot.party side).stage = .ended ∨ (boot.party side).stage = .connecting →
    boot.closed side = true
  alone : (boot.party true).stage = .absent →
    (boot.party false).stage = .ended ∨ (boot.party false).stage = .connecting
  lasting : (boot.party true).retry = false
  order : (boot.party true).started = true → (boot.party false).started = true
  strategy : StrategyType (boot.party false).redundancyStrategy

variable {boot : Bootstrapping} {side : Bool} {after : Bootstrapper} {said : List BootMessage}
  {got : Nat} {closed : Bool → Bool}

/-- One side goes on, and the other one stays where it is. -/
theorem Sound.goes (sound : boot.Sound platform)
    (speaks : after.Speaks platform side (boot.sent side ++ said))
    (hears : after.Hears side (boot.party !side) (boot.received side + got))
    (within : boot.received side + got ≤ (boot.sent !side).length)
    (steady : Steady (boot.party side) after (boot.sent side).length)
    (shut : after.stage = .ended ∨ after.stage = .connecting → closed side = true)
    (closes : ∀ query, boot.closed query = true → closed query = true)
    (alone : side = true → after.stage = .absent → (boot.party true).stage = .absent)
    (leaves : side = false → (boot.party true).stage = .absent →
      after.stage = .ended ∨ after.stage = .connecting)
    (lasting : side = true → after.retry = false)
    (order : if side then after.started = true → (boot.party false).started = true
      else (boot.party false).started = true → after.started = true)
    (strategy : side = false → StrategyType after.redundancyStrategy) :
    Sound platform ⟨Function.update boot.party side after,
      Function.update boot.sent side (boot.sent side ++ said),
      Function.update boot.received side (boot.received side + got), closed⟩ := by
  have different : (!side) ≠ side := Bool.not_ne_self side
  have cases' : ∀ query, query = side ∨ query = !side := fun query => by
    cases query <;> cases side <;> simp
  constructor
  · intro query
    rcases cases' query with rfl | rfl
    · simpa only [Function.update_self] using speaks
    · simpa only [Function.update_of_ne different] using sound.speaks (!side)
  · intro query
    rcases cases' query with rfl | rfl
    · simpa only [Function.update_self, Function.update_of_ne different] using hears
    · have heard := sound.hears (!side)
      rw [Bool.not_not] at heard
      simp only [Function.update_of_ne different, Bool.not_not, Function.update_self]
      have most := sound.within (!side)
      rw [Bool.not_not] at most
      exact heard.steady steady most
  · intro query
    rcases cases' query with rfl | rfl
    · simpa only [Function.update_self, Function.update_of_ne different] using within
    · have most := sound.within (!side)
      rw [Bool.not_not] at most
      simp only [Function.update_of_ne different, Bool.not_not, Function.update_self,
        List.length_append]
      exact most.trans (Nat.le_add_right _ _)
  · intro query
    rcases cases' query with rfl | rfl
    · simpa only [Function.update_self] using shut
    · simp only [Function.update_of_ne different]
      exact fun stopped => closes _ (sound.shut _ stopped)
  all_goals cases side
  · exact leaves rfl
  · exact fun absent => sound.alone (alone rfl absent)
  · exact sound.lasting
  · exact lasting rfl
  · exact fun started => order (sound.order started)
  · exact order
  · exact strategy rfl
  · exact sound.strategy

/-- The same, with the effect on the socket. -/
theorem Sound.advances (sound : boot.Sound platform)
    (speaks : after.Speaks platform side (boot.sent side ++ said))
    (hears : after.Hears side (boot.party !side) (boot.received side + got))
    (within : boot.received side + got ≤ (boot.sent !side).length)
    (steady : Steady (boot.party side) after (boot.sent side).length)
    (here : after.stage ≠ .absent)
    (leaves : side = false → (boot.party true).stage = .absent →
      after.stage = .ended ∨ after.stage = .connecting)
    (lasting : side = true → after.retry = false)
    (order : if side then after.started = true → (boot.party false).started = true
      else (boot.party false).started = true → after.started = true)
    (strategy : side = false → StrategyType after.redundancyStrategy) :
    (boot.advance side said got after).Sound platform := by
  refine sound.goes speaks hears within steady ?_ ?_ (fun _ absent => (here absent).elim) leaves lasting order strategy
  · rintro (stopped | stopped) <;> simp [stopped]
  · intro query closed
    by_cases same : query = side
    · subst same
      simp [closed]
    · rwa [Function.update_of_ne same]

theorem Sound.lone (sound : boot.Sound platform) (again : (boot.party side).retry = true) :
    side = false := by
  cases side with
  | false => rfl
  | true => exact absurd again (by rw [sound.lasting]; exact Bool.false_ne_true)

theorem Sound.not_alone (sound : boot.Sound platform) (going : (boot.party false).stage ≠ .ended)
    (connected : (boot.party false).stage ≠ .connecting) : (boot.party true).stage ≠ .absent :=
  fun absent => (sound.alone absent).elim going connected

/-- A step after which a side has no connection. -/
theorem Sound.stops (sound : boot.Sound platform)
    (same : after.listenPort = (boot.party side).listenPort ∧
      after.offered = (boot.party side).offered ∧ after.told = (boot.party side).told ∧
        after.started = (boot.party side).started ∧
          after.redundancyStrategy = (boot.party side).redundancyStrategy)
    (placed : after.Placed side (boot.sent side).length) (failed : after.status ≠ .succeeded)
    (stopped : after.stage = .ended ∨ after.stage = .connecting)
    (lasting : side = true → after.retry = false) :
    (boot.advance side [] 0 after).Sound platform := by
  obtain ⟨port, offered, told, started, strategy⟩ := same
  have script : after.script platform = (boot.party side).script platform := by
    unfold Bootstrapper.script
    rw [port, offered, told]
  apply sound.advances
  · rw [List.append_nil]
    exact (sound.speaks side).quiet script offered (fun before => started.trans before) placed
  · exact hears_failed failed stopped
  · exact sound.within side
  · exact ⟨port, fun _ => offered, fun _ => told⟩
  · rcases stopped with stopped | stopped <;> rw [stopped] <;> exact BootStage.noConfusion
  · exact fun _ _ => stopped
  · exact lasting
  · cases side with
    | false => exact fun before => started.trans before
    | true => exact fun before => sound.order (started.symm.trans before)
  · rintro rfl
    rw [strategy]
    exact sound.strategy

/-- A step that throws. -/
theorem Sound.throws (sound : boot.Sound platform) {stage : BootStage}
    (here : (boot.party side).stage = stage) (going : stage ≠ .ended) :
    (boot.throws side).Sound platform := by
  obtain ⟨port, offered, told, started, strategy, retry⟩ := (boot.party side).thrown_kept
  have short : side = true → (boot.sent side).length ≠ (boot.party side).told.length + 2 := by
    rintro rfl
    exact (sound.speaks true).placed.short (here.symm ▸ going)
  exact sound.stops ⟨port, offered, told, started, strategy⟩ (thrown_placed sound.lone short)
    (boot.party side).thrown_failed (boot.party side).thrown_shut fun _ => retry

/-- A hello is sent. -/
theorem Sound.sendsHello (sound : boot.Sound platform) (side done : Bool)
    (stage : (boot.party side).stage = .sendHello) :
    (boot.sends side done (helloMessage platform (boot.party side))
      { boot.party side with offered := (boot.party side).redundancyStrategy }.onward).Sound
        platform := by
  unfold sends
  split_ifs with sent
  swap
  · exact sound.throws stage BootStage.noConfusion
  have placed := (sound.speaks side).placed
  have hears := sound.hears side
  unfold Placed at placed
  simp only [stage] at placed
  obtain ⟨accepts, status, none'⟩ := placed
  have nothing : boot.sent side = [] := List.eq_nil_of_length_eq_zero none'
  have steady : ∀ {after : Bootstrapper}, after.listenPort = (boot.party side).listenPort →
      Steady (boot.party side) after (boot.sent side).length := fun port =>
    ⟨port, fun some' => by omega, fun some' => by omega⟩
  cases side with
  | true =>
      rw [onward_some { boot.party true with offered := (boot.party true).redundancyStrategy }
        accepts stage rfl]
      refine sound.advances ?_ (hears_going status rfl
        ((hears.holds status stage).same rfl (fun _ => rfl) rfl))
        (sound.within true) (steady rfl) BootStage.noConfusion nofun (fun _ => sound.lasting)
        sound.order nofun
      rw [nothing]
      exact ⟨⟨_, _, rfl⟩, ⟨accepts, status, rfl⟩, fun more => absurd more (lt_irrefl _), nofun⟩
  | false =>
      rw [onward_some { boot.party false with offered := (boot.party false).redundancyStrategy }
        accepts stage rfl]
      refine sound.advances ?_ (hears_going status rfl
        ((hears.holds status stage).same rfl (fun _ => rfl) rfl))
        (sound.within false) (steady rfl) BootStage.noConfusion ?_ nofun id fun _ => sound.strategy
      · rw [nothing]
        exact ⟨⟨_, _, rfl⟩, .inl ⟨accepts, status, rfl⟩, fun more => absurd more (lt_irrefl _),
          fun _ _ => sound.strategy⟩
      · exact fun _ absent => (sound.not_alone (by rw [stage]; nofun) (by rw [stage]; nofun)
          absent).elim

/-- A step that says nothing, of a bootstrapper that is at work. -/
theorem Sound.continues (sound : boot.Sound platform)
    (same : after.listenPort = (boot.party side).listenPort ∧
      after.offered = (boot.party side).offered ∧ after.told = (boot.party side).told ∧
        after.retry = (boot.party side).retry)
    (placed : after.Placed side (boot.sent side).length)
    (hears : after.Hears side (boot.party !side) (boot.received side + got))
    (within : boot.received side + got ≤ (boot.sent !side).length)
    (going : (boot.party side).stage ≠ .ended) (connected : (boot.party side).stage ≠ .connecting)
    (here : after.stage ≠ .absent)
    (started : (boot.party side).started = true → after.started = true)
    (order : side = true → after.started = true → (boot.party false).started = true)
    (strategy : side = false →
      after.redundancyStrategy = (boot.party side).redundancyStrategy) :
    (boot.advance side [] got after).Sound platform := by
  obtain ⟨port, offered, told, retry⟩ := same
  have script : after.script platform = (boot.party side).script platform := by
    unfold Bootstrapper.script
    rw [port, offered, told]
  refine sound.advances ?_ hears within ⟨port, fun _ => offered, fun _ => told⟩ here ?_ ?_ ?_ ?_
  · rw [List.append_nil]
    exact (sound.speaks side).quiet script offered started placed
  · rintro rfl absent
    exact (sound.not_alone going connected absent).elim
  · rintro rfl
    rw [retry]
    exact sound.lasting
  · cases side with
    | false => exact started
    | true => exact order rfl
  · rintro rfl
    rw [strategy rfl]
    exact sound.strategy

/-- A bootstrapper that lists its interfaces says what its script says next. -/
theorem Sound.tells (sound : boot.Sound platform) {left : Option (List NetInterface)}
    {told rest : List NetInterface} {iface : NetInterface}
    (stage : (boot.party side).stage = .sendListeners left)
    (listed : told = if left.isNone then (boot.party side).localIfaces.toList
      else (boot.party side).told)
    (onward : left.getD ((boot.party side).localIfaces.toList ++ [sentinel]) = iface :: rest) :
    Steady (boot.party side) { boot.party side with told := told } (boot.sent side).length ∧
      rest = (told ++ [sentinel]).drop (boot.sent side).length ∧
      ∃ numIfaces, boot.sent side ++ [listenerMessage platform iface] <+:
        { boot.party side with told := told }.script platform numIfaces := by
  obtain ⟨-, -, -, one, same, list, numIfaces, said⟩ := (sound.speaks side).listing stage listed
  rw [list] at onward
  obtain ⟨count, size⟩ : ∃ count, (boot.sent side).length = count + 1 :=
    ⟨_, (Nat.succ_pred_eq_of_pos one).symm⟩
  rw [size, Nat.add_sub_cancel] at onward
  have follows : ({ boot.party side with told := told }.script platform numIfaces).drop
      (boot.sent side).length =
        listenerMessage platform iface :: rest.map (listenerMessage platform) := by
    rw [size]
    change ((told ++ [sentinel]).map _).drop count = _
    rw [← List.map_drop, onward, List.map_cons]
  refine ⟨⟨rfl, fun _ => rfl, same⟩, ?_, numIfaces, prefix_concat said follows⟩
  rw [size, ← List.tail_drop, onward, List.tail_cons]

/-- An interface is sent, and it is not the last. -/
theorem Sound.lists (sound : boot.Sound platform) (side done : Bool)
    {left : Option (List NetInterface)} {told rest : List NetInterface} {iface : NetInterface}
    (stage : (boot.party side).stage = .sendListeners left)
    (listed : told = if left.isNone then (boot.party side).localIfaces.toList
      else (boot.party side).told)
    (onward : left.getD ((boot.party side).localIfaces.toList ++ [sentinel]) = iface :: rest)
    (more : rest ≠ []) :
    (boot.sends side done (listenerMessage platform iface)
      { boot.party side with told := told, stage := .sendListeners (some rest) }).Sound platform := by
  unfold sends
  split_ifs with sent
  swap
  · exact sound.throws stage BootStage.noConfusion
  obtain ⟨accepts, status, started, one, -, -, -⟩ := (sound.speaks side).listing stage listed
  obtain ⟨steady, left', said⟩ := sound.tells stage listed onward
  have size : (boot.sent side ++ [listenerMessage platform iface]).length =
      (boot.sent side).length + 1 := by
    rw [List.length_append, List.length_singleton]
  refine sound.advances ?_ (hears_going status rfl
    (((sound.hears side).holds status stage).same rfl (fun _ => rfl) rfl)) (sound.within side)
    ⟨rfl, steady.offered, steady.told⟩ BootStage.noConfusion ?_ ?_ ?_ ?_
  · refine ⟨said, ?_, fun _ => started, fun connecting _ => ?_⟩
    · rw [size]
      exact ⟨accepts, status, started, Nat.lt_succ_of_le one, more, left'⟩
    · exact (sound.speaks side).range connecting (List.ne_nil_of_length_pos one)
  · rintro rfl absent
    exact (sound.not_alone (by rw [stage]; nofun) (by rw [stage]; nofun) absent).elim
  · rintro rfl
    exact sound.lasting
  · cases side with
    | false => exact id
    | true => exact sound.order
  · rintro rfl
    exact sound.strategy

/-- The last step of a side, by which it has said all and knows all. -/
theorem Sound.succeeds (sound : boot.Sound platform)
    (saying : ∃ numIfaces, boot.sent side ++ said <+: after.script platform numIfaces)
    (all : (boot.sent side ++ said).length = after.told.length + 2)
    (began : (boot.party side).started = true) (some' : boot.sent side ≠ [])
    (listened : Listened side after (boot.party !side) (boot.received side + got))
    (within : boot.received side + got ≤ (boot.sent !side).length)
    (steady : Steady (boot.party side) after (boot.sent side).length)
    (same : after.offered = (boot.party side).offered ∧
      after.started = (boot.party side).started ∧ after.retry = (boot.party side).retry ∧
        after.redundancyStrategy = (boot.party side).redundancyStrategy)
    (going : (boot.party side).stage ≠ .ended) (connected : (boot.party side).stage ≠ .connecting) :
    (boot.advance side said got after.succeed).Sound platform := by
  obtain ⟨port, offered, told, started, strategy, remote, heard, retry⟩ := after.succeed_kept
  obtain ⟨offered', started', retry', strategy'⟩ := same
  refine sound.advances ⟨?_, ?_, fun _ => ?_, fun connecting _ => ?_⟩ ?_ within
    ⟨port.trans steady.port, fun more => offered.trans (steady.offered more),
      fun more => told.trans (steady.told more)⟩ ?_ ?_ (fun _ => retry) ?_ ?_
  · unfold script
    rw [port, offered, told]
    exact saying
  · exact succeed_placed (fun again => sound.lone (retry'.symm.trans again)) all
  · rw [started, started', began]
  · rw [offered, offered']
    exact (sound.speaks side).range connecting some'
  · have holds : Knowledge.list.Holds side after (boot.party !side) (boot.received side + got) :=
      listened
    exact (hears_succeeded after.succeed_status).mpr (holds.same remote (fun _ => strategy) heard)
  · rcases after.succeed_cases with ⟨-, eq⟩ | ⟨-, eq⟩ <;> rw [eq] <;> exact BootStage.noConfusion
  · rintro rfl absent
    exact (sound.not_alone going connected absent).elim
  · rw [started, started']
    cases side with
    | false => exact id
    | true => exact sound.order
  · rintro rfl
    rw [strategy, strategy']
    exact sound.strategy

/-- The end of the list is sent. -/
theorem Sound.listsAll (sound : boot.Sound platform) (side done : Bool)
    {left : Option (List NetInterface)} {told : List NetInterface} {iface : NetInterface}
    (stage : (boot.party side).stage = .sendListeners left)
    (listed : told = if left.isNone then (boot.party side).localIfaces.toList
      else (boot.party side).told)
    (onward : left.getD ((boot.party side).localIfaces.toList ++ [sentinel]) = [iface]) :
    (boot.sends side done (listenerMessage platform iface)
      { boot.party side with told := told }.onward).Sound platform := by
  unfold sends
  split_ifs with sent
  swap
  · exact sound.throws stage BootStage.noConfusion
  obtain ⟨accepts, status, started, one, -, list, -⟩ := (sound.speaks side).listing stage listed
  obtain ⟨steady, left', said⟩ := sound.tells stage listed onward
  have hears := (sound.hears side).holds status stage
  have all : (boot.sent side ++ [listenerMessage platform iface]).length = told.length + 2 := by
    have count := congrArg List.length list
    simp only [onward, List.length_drop, List.length_append, List.length_singleton] at count ⊢
    omega
  have range : side = false → boot.sent side ++ [listenerMessage platform iface] ≠ [] →
      StrategyType (boot.party side).offered := fun connecting _ =>
    (sound.speaks side).range connecting (List.ne_nil_of_length_pos one)
  cases side with
  | false =>
      rw [onward_some { boot.party false with told := told } accepts stage rfl]
      refine sound.advances ⟨said, ⟨accepts, status, all⟩, fun _ => started, range⟩
        (hears_going status rfl (hears.same rfl (fun _ => rfl) rfl)) (sound.within false)
        ⟨rfl, steady.offered, steady.told⟩ BootStage.noConfusion ?_ nofun id fun _ => sound.strategy
      intro _ absent
      exact (sound.not_alone (by rw [stage]; nofun) (by rw [stage]; nofun) absent).elim
  | true =>
      rw [onward_none { boot.party true with told := told } accepts stage rfl]
      exact sound.succeeds said all started (List.ne_nil_of_length_pos one)
        (hears.same rfl (fun _ => rfl) rfl) (sound.within true)
        ⟨rfl, steady.offered, steady.told⟩ ⟨rfl, rfl, rfl, rfl⟩ (by rw [stage]; nofun)
        (by rw [stage]; nofun)

/-- A message that arrives is what the script of the other side says there. -/
theorem Sound.arrives (sound : boot.Sound platform) {message : BootMessage}
    (arriving : boot.arriving side = some message) :
    boot.received side + 1 ≤ (boot.sent !side).length ∧
      ∃ numIfaces, ((boot.party !side).script platform numIfaces)[boot.received side]? =
        some message := by
  obtain ⟨numIfaces, said⟩ := (sound.speaks !side).said
  obtain ⟨below, -⟩ := List.getElem?_eq_some_iff.mp arriving
  refine ⟨below, numIfaces, ?_⟩
  rw [List.prefix_iff_getElem?.mp said _ below, ← List.getElem?_eq_getElem below]
  exact arriving

/-- The strategy in a hello is of a known type, and stays the same in a word. -/
theorem host_strategy {type : Int} (known : StrategyType type) :
    toInt (platform.host (platform.net type)) = type :=
  Platform.toInt_host_net (by have := known.1; omega) (by have := known.2; omega)

/-- A message is read in place of a hello. -/
theorem Sound.hearsHello (sound : boot.Sound platform) {message : BootMessage}
    (stage : (boot.party side).stage = .recvHello) (arriving : boot.arriving side = some message) :
    (recvHello platform boot side message).Sound platform := by
  obtain ⟨within, numIfaces, at'⟩ := sound.arrives arriving
  cases message with
  | newInterface ipAddr bandwidthDown bandwidthUp rtt type => exact sound.throws stage BootStage.noConfusion
  | hello listenPort num strategy =>
      have placed := (sound.speaks side).placed
      have hears := sound.hears side
      unfold Placed at placed
      simp only [stage] at placed
      rcases placed with ⟨accepts, status, count⟩ | ⟨-, -, status, -⟩
      swap
      · -- all that is behind the first message is a list of interfaces
        have listened := (hears_succeeded status).mp hears
        obtain ⟨before, eq⟩ : ∃ before, boot.received side = before + 1 :=
          ⟨_, (Nat.succ_pred_eq_of_pos (Nat.lt_of_lt_of_le Nat.zero_lt_two listened.several)).symm⟩
        rw [eq] at at'
        change ((_ : List NetInterface).map _)[before]? = _ at at'
        rw [List.getElem?_map] at at'
        obtain ⟨iface, -, wrong⟩ := Option.map_eq_some_iff.mp at'
        exact BootMessage.noConfusion wrong
      · obtain ⟨none', silent⟩ := hears.holds status stage
        rw [none'] at at'
        obtain ⟨port, -, type⟩ := BootMessage.hello.inj (Option.some.inj at')
        have first : boot.sent (!side) ≠ [] :=
          List.ne_nil_of_length_pos (Nat.lt_of_lt_of_le (Nat.succ_pos _) within)
        have greeted : ∀ after : Bootstrapper,
            after.remoteListenerPort = (boot.party !side).listenPort →
            (side = true → after.redundancyStrategy = (boot.party !side).offered) →
            after.heard = (boot.party side).heard →
            Greeted side after (boot.party !side) (boot.received side + 1) := by
          intro after port strategy heard
          rw [none']
          exact ⟨le_rfl, port, strategy, heard.trans silent, nofun, Nat.le_add_left 1 _⟩
        unfold recvHello
        dsimp only
        cases side with
        | true =>
            have known : StrategyType (boot.party false).offered :=
              (sound.speaks false).range rfl first
            have read : toInt (platform.host strategy) = (boot.party !true).offered := by
              rw [← type]
              exact host_strategy known
            rw [read, onward_some (greet true listenPort (boot.party !true).offered
              (boot.party true)) accepts stage rfl]
            exact sound.continues ⟨rfl, rfl, rfl, rfl⟩ ⟨accepts, status, count⟩
              (hears_going status rfl (greeted _ port.symm (fun _ => rfl) rfl)) within
              (by rw [stage]; nofun) (by rw [stage]; nofun) BootStage.noConfusion id
              (fun _ => sound.order) nofun
        | false =>
            rw [onward_some (greet false listenPort _ (boot.party false)) accepts stage rfl]
            exact sound.continues ⟨rfl, rfl, rfl, rfl⟩ ⟨accepts, status, count⟩
              (hears_going status rfl (greeted _ port.symm nofun rfl)) within
              (by rw [stage]; nofun) (by rw [stage]; nofun) BootStage.noConfusion id nofun
              fun _ => rfl

/-- An interface arrives with its figures narrowed. -/
theorem listener_heard {iface : NetInterface} {ipAddr bandwidthDown bandwidthUp rtt type : UInt32}
    (sent : listenerMessage platform iface = .newInterface ipAddr bandwidthDown bandwidthUp rtt type) :
    ipAddr = iface.ipAddr ∧
      listener platform ipAddr bandwidthDown bandwidthUp rtt type = iface.heard := by
  obtain ⟨rfl, rfl, rfl, rfl, rfl⟩ := BootMessage.newInterface.inj sent
  refine ⟨rfl, ?_⟩
  have wrapped : toInt (iface.type % 2 ^ 32) = toInt iface.type := Int.emod_bmod _ (2 ^ 32)
  unfold listener NetInterface.heard
  rw [platform.host_net, platform.host_net, platform.host_net, platform.host_net, wrapped]

/-- What the next message of a list is, for a side that has heard a part of the list. -/
theorem next_of_greeted {hearer speaker : Bootstrapper} {count : Nat} {numIfaces : UInt32}
    {message : BootMessage} (greeted : Greeted side hearer speaker count)
    (at' : (speaker.script platform numIfaces)[count]? = some message) :
    ∃ iface, message = listenerMessage platform iface ∧
      (iface.ipAddr ≠ 0 → speaker.told[count - 1]? = some iface) ∧
      (iface.ipAddr = 0 → (speaker.told.takeWhile fun iface => iface.ipAddr ≠ 0) =
          speaker.told.take (count - 1) ∧
        (count = speaker.told.length + 1 ∨ ∃ iface ∈ speaker.told, iface.ipAddr = 0)) := by
  obtain ⟨before, rfl⟩ : ∃ before, count = before + 1 :=
    ⟨_, (Nat.succ_pred_eq_of_pos greeted.some').symm⟩
  change ((speaker.told ++ [sentinel]).map _)[before]? = _ at at'
  rw [List.getElem?_map] at at'
  obtain ⟨iface, found, rfl⟩ := Option.map_eq_some_iff.mp at'
  have proper := greeted.proper
  rw [Nat.add_sub_cancel] at proper ⊢
  have passes : ∀ other ∈ speaker.told.take before, decide (other.ipAddr ≠ 0) = true :=
    fun other member => decide_eq_true (proper other member)
  refine ⟨iface, rfl, ?_⟩
  by_cases within : before < speaker.told.length
  · rw [List.getElem?_append_left within] at found
    refine ⟨fun _ => found, fun zero => ?_⟩
    obtain ⟨bound, eq⟩ := List.getElem?_eq_some_iff.mp found
    refine ⟨?_, .inr ⟨iface, List.mem_of_getElem? found, zero⟩⟩
    conv_lhs => rw [← List.take_append_drop before speaker.told, List.drop_eq_getElem_cons bound, eq]
    rw [List.takeWhile_append_of_pos passes, List.takeWhile_cons_of_neg (by simp [zero]),
      List.append_nil]
  · rw [List.getElem?_append_right (Nat.le_of_not_lt within)] at found
    obtain ⟨bound, rfl⟩ := List.getElem?_eq_some_iff.mp found
    rw [List.length_singleton] at bound
    have last : before = speaker.told.length := by omega
    subst last
    rw [List.take_length] at passes ⊢
    simp only [Nat.sub_self, List.getElem_cons_zero]
    exact ⟨fun nonzero => absurd rfl nonzero,
      fun _ => ⟨List.takeWhile_eq_self_iff.mpr passes, .inl trivial⟩⟩

/-- A message is read in place of an interface. -/
theorem Sound.hearsListener (sound : boot.Sound platform) {message : BootMessage}
    (stage : (boot.party side).stage = .recvListeners)
    (arriving : boot.arriving side = some message) :
    (recvRemoteListener platform boot side message).Sound platform := by
  obtain ⟨within, numIfaces, at'⟩ := sound.arrives arriving
  cases message with
  | hello listenPort numIfaces strategy => exact sound.throws stage BootStage.noConfusion
  | newInterface ipAddr bandwidthDown bandwidthUp rtt type =>
      have placed := (sound.speaks side).placed
      unfold Placed at placed
      simp only [stage] at placed
      obtain ⟨accepts, status, count⟩ := placed
      have greeted : Greeted side (boot.party side) (boot.party !side) (boot.received side) :=
        (sound.hears side).holds status stage
      obtain ⟨iface, eq, follows, ends⟩ := next_of_greeted greeted at'
      obtain ⟨rfl, narrowed⟩ := listener_heard eq.symm
      have going : (boot.party side).stage ≠ .ended := by rw [stage]; nofun
      have connected : (boot.party side).stage ≠ .connecting := by rw [stage]; nofun
      unfold recvRemoteListener
      dsimp only
      rw [narrowed]
      by_cases zero : iface.ipAddr = 0
      · rw [if_pos zero]
        obtain ⟨list, whole⟩ := ends zero
        have listened : Listened side (boot.party side) (boot.party !side)
            (boot.received side + 1) :=
          ⟨Nat.succ_le_succ greeted.some', greeted.port, greeted.strategy,
            by rw [list, greeted.heard], whole.imp_left fun last => by rw [last]⟩
        cases side with
        | true =>
            have holds : Knowledge.list.Holds true (boot.party true) (boot.party !true)
                (boot.received true + 1) := listened
            rw [onward_some (boot.party true) accepts stage rfl]
            exact sound.continues ⟨rfl, rfl, rfl, rfl⟩ ⟨accepts, status, count⟩
              (hears_going status rfl (holds.same rfl (fun _ => rfl) rfl)) within
              going connected BootStage.noConfusion id (fun _ => sound.order) nofun
        | false =>
            obtain ⟨said, -, began, -⟩ := sound.speaks false
            rw [onward_none (boot.party false) accepts stage rfl]
            have several : 1 < (boot.sent false).length := count ▸ Nat.le_add_left 2 _
            refine sound.succeeds ?_ ?_ (began several) (List.ne_nil_of_length_pos several.le)
              listened within ⟨rfl, fun _ => rfl, fun _ => rfl⟩ ⟨rfl, rfl, rfl, rfl⟩ going connected
            · rwa [List.append_nil]
            · rw [List.append_nil]
              exact count
      · rw [if_neg zero]
        have found := follows zero
        obtain ⟨before, size⟩ : ∃ before, boot.received side = before + 1 :=
          ⟨_, (Nat.succ_pred_eq_of_pos greeted.some').symm⟩
        have heard := greeted.heard
        have proper := greeted.proper
        rw [size, Nat.add_sub_cancel] at found heard proper
        have more : (boot.party !side).told.take (boot.received side + 1 - 1) =
            (boot.party !side).told.take before ++ [iface] := by
          rw [Nat.add_sub_cancel, size, List.take_add_one, found]
          rfl
        refine sound.continues ⟨rfl, rfl, rfl, rfl⟩ ?_ (hears_going status stage ?_) within
          going connected ?_ id ?_ fun _ => rfl
        · unfold Placed
          simp only [stage]
          exact ⟨accepts, status, count⟩
        · change Greeted _ _ _ _
          refine ⟨Nat.le_add_left 1 _, greeted.port, greeted.strategy, ?_, ?_, ?_⟩
          · rw [more, List.map_append, heard]
            rfl
          · rw [more]
            intro other member
            rcases List.mem_append.mp member with earlier | last
            · exact proper other earlier
            · rwa [List.mem_singleton.mp last]
          · obtain ⟨bound, -⟩ := List.getElem?_eq_some_iff.mp found
            rw [size]
            exact Nat.succ_le_succ bound
        · rw [stage]
          nofun
        · rintro rfl
          exact sound.order

/-- The csockets are started. The accepting side has heard from the other one that it has
started its own. -/
theorem Sound.startsUp (sound : boot.Sound platform)
    (stage : (boot.party side).stage = .startup) :
    (boot.advance side [] 0 { boot.party side with started := true }.onward).Sound platform := by
  have placed := (sound.speaks side).placed
  have hears := sound.hears side
  unfold Placed at placed
  simp only [stage] at placed
  obtain ⟨accepts, status, count⟩ := placed
  have holds := hears.holds status stage
  have follows : next side .startup = some (.sendListeners none) := by cases side <;> rfl
  rw [onward_some { boot.party side with started := true } accepts stage follows]
  have known : Knowledge.at side (.sendListeners none) = Knowledge.at side .startup := rfl
  refine sound.continues ⟨rfl, rfl, rfl, rfl⟩ ⟨accepts, status, rfl, count⟩
    (hears_going status rfl (holds.same rfl (fun _ => rfl) rfl)) (sound.within side)
    (by rw [stage]; nofun) (by rw [stage]; nofun) BootStage.noConfusion (fun _ => rfl) ?_
    fun _ => rfl
  rintro rfl -
  have listened : Listened true (boot.party true) (boot.party false) (boot.received true) := holds
  exact (sound.speaks false).began (listened.several.trans (sound.within true))

/-- Something changes that no message depends on. -/
theorem Sound.sets (sound : boot.Sound platform)
    (same : after.listenPort = (boot.party side).listenPort ∧
      after.offered = (boot.party side).offered ∧ after.told = (boot.party side).told ∧
        after.started = (boot.party side).started ∧ after.heard = (boot.party side).heard ∧
          after.remoteListenerPort = (boot.party side).remoteListenerPort)
    (still : after.stage = (boot.party side).stage ∧ after.accepts = (boot.party side).accepts ∧
      after.status = (boot.party side).status)
    (lasting : side = true → after.retry = false)
    (strategy : if side then after.redundancyStrategy = (boot.party side).redundancyStrategy
      else StrategyType after.redundancyStrategy)
    (closes : ∀ query, boot.closed query = true → closed query = true) :
    Sound platform { boot with party := Function.update boot.party side after, closed := closed } := by
  obtain ⟨port, offered, told, started, heard, remote⟩ := same
  obtain ⟨stage, accepts, status⟩ := still
  have script : after.script platform = (boot.party side).script platform := by
    unfold Bootstrapper.script
    rw [port, offered, told]
  have placed : after.Placed side (boot.sent side).length := by
    have placed := (sound.speaks side).placed
    unfold Placed at placed ⊢
    rw [stage, accepts, status, started, told]
    exact placed
  have hears : after.Hears side (boot.party !side) (boot.received side) := by
    have hears := sound.hears side
    unfold Hears at hears ⊢
    rw [stage, status]
    refine hears.same remote (fun accepting => ?_) heard
    rwa [if_pos accepting] at strategy
  have whole : Sound platform ⟨Function.update boot.party side after,
      Function.update boot.sent side (boot.sent side ++ []),
      Function.update boot.received side (boot.received side + 0), closed⟩ := by
    refine sound.goes ?_ hears (sound.within side) ⟨port, fun _ => offered, fun _ => told⟩
      (fun stopped => closes _ (sound.shut side (by rwa [← stage]))) closes ?_ ?_ lasting ?_ ?_
    · rw [List.append_nil]
      exact (sound.speaks side).quiet script offered (fun before => started.trans before) placed
    · rintro rfl absent
      rwa [← stage]
    · rintro rfl absent
      rw [stage]
      exact sound.alone absent
    · rw [started]
      cases side with
      | false => exact id
      | true => exact sound.order
    · rintro rfl
      exact strategy
  simpa only [List.append_nil, Nat.add_zero, Function.update_eq_self] using whole

/-- The same, where the strategy and `retry` stay. -/
theorem Sound.touches (sound : boot.Sound platform)
    (same : after.listenPort = (boot.party side).listenPort ∧
      after.offered = (boot.party side).offered ∧ after.told = (boot.party side).told ∧
        after.started = (boot.party side).started ∧ after.heard = (boot.party side).heard ∧
          after.remoteListenerPort = (boot.party side).remoteListenerPort)
    (still : after.stage = (boot.party side).stage ∧ after.accepts = (boot.party side).accepts ∧
      after.status = (boot.party side).status)
    (kept : after.retry = (boot.party side).retry ∧
      after.redundancyStrategy = (boot.party side).redundancyStrategy)
    (closes : ∀ query, boot.closed query = true → closed query = true) :
    Sound platform { boot with party := Function.update boot.party side after, closed := closed } := by
  refine sound.sets same still ?_ ?_ closes
  · rintro rfl
    exact kept.1.trans sound.lasting
  · cases side with
    | false => exact kept.2 ▸ sound.strategy
    | true => exact kept.2

/-- A connection to a new multisocket. -/
theorem Sound.connects (sound : boot.Sound platform) {acceptor : Bootstrapper}
    (fresh : acceptor.Fresh) (stage : (boot.party false).stage = .connecting) :
    Sound platform ⟨fun side => if side then acceptor else { boot.party false with
        stage := .sendHello, started := false, heard := [], told := [] },
      fun _ => [], fun _ => 0, fun _ => false⟩ := by
  obtain ⟨accepts, here, status, retry, started, heard, -, known⟩ := fresh
  have placed := (sound.speaks false).placed
  unfold Placed at placed
  simp only [stage] at placed
  obtain ⟨-, accepts', status'⟩ := placed
  constructor
  case speaks =>
    intro side
    cases side with
    | false => exact ⟨⟨0, List.nil_prefix⟩, ⟨accepts', status', rfl⟩, nofun, fun _ some' => absurd rfl some'⟩
    | true =>
        refine ⟨⟨0, List.nil_prefix⟩, ?_, nofun, nofun⟩
        unfold Placed
        simp only [here, if_true]
        exact .inl ⟨accepts, status, rfl⟩
  case hears =>
    intro side
    cases side with
    | false => exact hears_going status' rfl ⟨rfl, rfl⟩
    | true => exact hears_going status here ⟨rfl, heard⟩
  case within => exact fun _ => le_rfl
  case shut =>
    intro side stopped
    cases side with
    | false => rcases stopped with stopped | stopped <;> cases stopped
    | true =>
        simp only [if_true, here, reduceCtorEq, or_self] at stopped
  case alone => exact fun absent => by simp [here] at absent
  case lasting => exact retry
  case order => exact fun began => absurd (started.symm.trans began) Bool.false_ne_true
  case strategy => exact sound.strategy

/-- No step leaves what is sound. -/
theorem sound_step {next : Bootstrapping} {event : BootEvent} (sound : boot.Sound platform)
    (permitted : (machine platform).permitted boot event)
    (moved : step platform boot event = some next) : next.Sound platform := by
  have spoken := fun side => (sound.speaks side).placed
  have closes : ∀ side query, boot.closed query = true →
      Function.update boot.closed side true query = true := fun side query closed => by
    by_cases same : query = side
    · rw [same, Function.update_self]
    · rwa [Function.update_of_ne same]
  unfold step at moved
  cases event with
  | noSocket =>
      dsimp only at moved
      split_ifs at moved with stage
      cases moved
      have placed := spoken false
      unfold Placed at placed
      simp only [stage] at placed
      have failed : (boot.party false).status ≠ .succeeded := by
        rw [placed.2.2]
        exact BootStatus.noConfusion
      exact sound.stops ⟨rfl, rfl, rfl, rfl, rfl⟩ ⟨fun stopped => (failed stopped).elim, nofun⟩
        failed (.inl rfl) nofun
  | connectFails =>
      dsimp only at moved
      split_ifs at moved with stage
      cases moved
      obtain ⟨port, offered, told, started, strategy, retry⟩ :=
        thrown_kept { boot.party false with status := .refused }
      exact sound.stops ⟨port, offered, told, started, strategy⟩ (thrown_placed (fun _ => rfl) nofun)
        (thrown_failed _) (thrown_shut _) nofun
  | connects acceptor =>
      dsimp only at moved
      split_ifs at moved with stage
      cases moved
      exact sound.connects permitted stage.1
  | send side done =>
      dsimp only at moved
      split at moved
      case h_1 stage =>
        cases moved
        exact sound.sendsHello side done stage
      case h_2 left stage =>
        split at moved
        case h_1 => cases moved
        case h_2 last only =>
          cases moved
          exact sound.listsAll side done stage rfl only
        case h_3 iface rest more list =>
          cases moved
          exact sound.lists side done stage rfl list more
      case h_3 => cases moved
  | recv side whole =>
      dsimp only at moved
      split at moved
      case h_1 message stage arriving =>
        cases moved
        split_ifs
        · exact sound.hearsHello stage arriving
        · exact sound.throws stage BootStage.noConfusion
      case h_2 message stage arriving =>
        cases moved
        split_ifs
        · exact sound.hearsListener stage arriving
        · exact sound.throws stage BootStage.noConfusion
      case h_3 stage _ =>
        split_ifs at moved
        cases moved
        exact sound.throws stage BootStage.noConfusion
      case h_4 stage _ =>
        split_ifs at moved
        cases moved
        exact sound.throws stage BootStage.noConfusion
      case h_5 => cases moved
  | startup side connected =>
      dsimp only at moved
      split_ifs at moved with stage started
      · cases moved
        exact sound.startsUp stage
      · cases moved
        exact sound.throws stage BootStage.noConfusion
  | restart =>
      dsimp only at moved
      split_ifs at moved
      · cases moved
        exact sound
      · cases moved
        refine sound.sets ⟨rfl, rfl, rfl, rfl, rfl, rfl⟩ ⟨rfl, rfl, rfl⟩ nofun sound.strategy ?_
        exact closes false
  | stop side =>
      cases moved
      have stopped : Sound platform { boot with
          party := Function.update boot.party side (boot.party side)
          closed := Function.update boot.closed side true } :=
        sound.touches ⟨rfl, rfl, rfl, rfl, rfl, rfl⟩ ⟨rfl, rfl, rfl⟩ ⟨rfl, rfl⟩ (closes side)
      rwa [Function.update_eq_self] at stopped
  | setLocal side ifaces =>
      dsimp only at moved
      split at moved
      case h_1 => cases moved
      case h_2 =>
        cases moved
        exact sound.touches ⟨rfl, rfl, rfl, rfl, rfl, rfl⟩ ⟨rfl, rfl, rfl⟩ ⟨rfl, rfl⟩ fun _ => id
  | setRemote side ifaces =>
      cases moved
      exact sound.touches ⟨rfl, rfl, rfl, rfl, rfl, rfl⟩ ⟨rfl, rfl, rfl⟩ ⟨rfl, rfl⟩ fun _ => id
  | setStrategy side type =>
      obtain ⟨rfl, known⟩ := permitted
      cases moved
      exact sound.sets ⟨rfl, rfl, rfl, rfl, rfl, rfl⟩ ⟨rfl, rfl, rfl⟩ nofun known fun _ => id

/-- Before the first connection nothing was said. -/
theorem sound_initial (start : (machine platform).initial boot) : boot.Sound platform := by
  obtain ⟨stage, accepts, status, known, absent, status', retry, started, closed, nothing⟩ := start
  constructor
  case speaks =>
    intro side
    rw [(nothing side).1]
    refine ⟨⟨0, List.nil_prefix⟩, ?_, nofun, fun _ some' => absurd rfl some'⟩
    unfold Placed
    cases side with
    | false =>
        rw [stage]
        exact ⟨rfl, accepts, status⟩
    | true =>
        rw [absent]
        exact ⟨rfl, status', rfl⟩
  case hears =>
    intro side
    cases side with
    | false => exact hears_going status stage trivial
    | true => exact hears_going status' absent trivial
  case within => exact fun side => (nothing side).2 ▸ Nat.zero_le _
  case shut =>
    intro side stopped
    cases side with
    | false => exact closed
    | true => simp only [absent, reduceCtorEq, or_self] at stopped
  case alone => exact fun _ => .inr stage
  case lasting => exact retry
  case order => exact fun began => absurd (started.symm.trans began) Bool.false_ne_true
  case strategy => exact known

/-- The two sides are sound in every run. -/
theorem sound_of_reachable (reached : (machine platform).Reachable boot) : boot.Sound platform :=
  reached.induct (fun _ => sound_initial) fun _ _ _ _ sound permitted moved =>
    sound_step sound permitted moved

end Bootstrapping

end Libcmm
