import Libcmm.LastWord

/-! # The shutdown handshake

The first GOODBYE of a connection is the FIN: the endpoint that receives it starts to shut
down, sends what it still has and answers with its own GOODBYE, the FIN/ACK. An endpoint
tells the two apart by its `shutting_down` flag alone. The flag is also set when the
application closes, or when the connection is given up, while the FIN of the peer is
under way; that FIN is then taken for the answer.
-/

namespace Libcmm

open Lib

/-- The events that set `shutting_down`. -/
def EndpointEvent.closes : EndpointEvent → Bool
  | .goodbye _ _ _ | .fatalError _ => true
  | .controlException _ (.passOn _ _ last) => last
  | .controlException _ .hosed => true
  | _ => false

/-- The events that do not come from a GOODBYE of the peer. -/
def EndpointEvent.isOwn : EndpointEvent → Bool
  | .goodbye remoteInitiated _ _ => !remoteInitiated
  | .goodbyeAcked => false
  | _ => true

/-- Two endpoints. `handled` counts the GOODBYEs an endpoint has received, and `following`
says that its receiver has found it not to be shutting down and is about to shut it down. -/
structure Handshake where
  side : Bool → Endpoint
  handled : Bool → Nat
  following : Bool → Bool

/-- What happens: something at one endpoint, a GOODBYE is received, or its receiver goes on. -/
inductive HandshakeEvent where
  | endpoint (side : Bool) (event : EndpointEvent)
  | doGoodbye (side : Bool)
  | follow (side : Bool) (picked : List IrobId) (csocket : Bool)

namespace Endpoint

variable {endpoint after : Endpoint} {event : EndpointEvent}

/-- The GOODBYEs written in full. -/
def goodbyes (endpoint : Endpoint) : Nat := endpoint.history.countP LoopRecord.isGoodbye

/-- Only a closing event sets `shutting_down`. -/
theorem closes_of_shut (moved : endpoint.step event = some after)
    (opened : endpoint.shuttingDown = false) (shut : after.shuttingDown = true) :
    event.closes = true := by
  have unchanged : after.shuttingDown = endpoint.shuttingDown → event.closes = true :=
    fun same => by cases opened.symm.trans (same.symm.trans shut)
  cases event with
  | outgoing event =>
      simp only [step, outgoingStep] at moved
      split_ifs at moved
      · cases moved
        exact unchanged rfl
      · obtain ⟨next, -, rfl⟩ := Option.map_eq_some_iff.mp moved
        exact unchanged rfl
  | schedule csock level indexes =>
      cases moved
      cases level <;> exact unchanged rfl
  | interfaces down =>
      cases moved
      exact unchanged rfl
  | goodbye remoteInitiated picked csocket => rfl
  | goodbyeAcked =>
      simp only [step, goodbyeAcked] at moved
      split_ifs at moved
      cases moved
      exact unchanged rfl
  | shutdownTest csock =>
      simp only [step, shutdownTest] at moved
      split at moved
      · cases moved
        apply unchanged
        split_ifs <;> rfl
      · cases moved
  | goodbyeDone csock outcome =>
      simp only [step] at moved
      split at moved
      · cases moved
        cases outcome <;> exact unchanged rfl
      · cases moved
  | startWrite csock message id =>
      simp only [step] at moved
      split at moved
      · obtain ⟨psirob, -, rfl⟩ := Option.map_eq_some_iff.mp moved
        exact unchanged rfl
      · cases moved
  | writeDone csock outcome =>
      simp only [step] at moved
      split at moved
      · cases moved
        cases outcome <;> exact unchanged rfl
      · cases moved
  | throw csock fatal =>
      simp only [step] at moved
      split at moved
      · cases moved
        exact unchanged rfl
      · cases moved
  | fatalError csock => rfl
  | controlException csock outcome =>
      simp only [step] at moved
      split at moved
      · cases outcome with
        | hosed => rfl
        | passOn replacement picked last =>
            cases last with
            | true => rfl
            | false =>
                obtain ⟨checked, checking, rfl⟩ := Option.map_eq_some_iff.mp moved
                have same := (Raises.dataCheckAllIrobs checking).2
                cases replacement <;> exact unchanged same
      · cases moved
  | finish csock =>
      simp only [step] at moved
      split at moved
      · split_ifs at moved
        cases moved
        exact unchanged rfl
      · cases moved

/-- The history only grows. -/
theorem history_suffix (moved : endpoint.step event = some after) :
    endpoint.history <:+ after.history := by
  cases step_move moved with
  | outgoing records stepped entered recorded => exact List.suffix_append records _
  | raise raises => exact raises.history ▸ List.suffix_refl _
  | decide looping shutting nothing unsent unsending => exact List.suffix_cons _ _
  | goodbyeWritten writing => exact List.suffix_cons _ _
  | goodbyeFailed writing => exact List.suffix_refl _
  | startWrite looping found => exact List.suffix_refl _
  | wrote writing stops => exact List.suffix_cons _ _
  | stop raises away stops => exact raises.history ▸ List.suffix_refl _

theorem goodbyes_le (moved : endpoint.step event = some after) :
    endpoint.goodbyes ≤ after.goodbyes :=
  (history_suffix moved).sublist.countP_le

theorem Decided.step (decided : endpoint.Decided) (moved : endpoint.step event = some after) :
    after.Decided := by
  obtain ⟨record, member, decision⟩ := decided
  exact ⟨record, (history_suffix moved).subset member, decision⟩

/-- A GOODBYE is written only after a decision. -/
structure Announced (endpoint : Endpoint) : Prop where
  writing : ∀ csock, endpoint.tasks csock = .goodbye → endpoint.Decided
  written : (∃ record ∈ endpoint.history, record.isGoodbye = true) → endpoint.Decided

/-- A thread that takes up something else. -/
theorem Announced.away (announced : endpoint.Announced) {thread csock : CSocketId}
    (task : LoopTask) (other : task ≠ .goodbye)
    (writing : (endpoint.setTask thread task).tasks csock = .goodbye) : endpoint.Decided := by
  rw [setTask_tasks] at writing
  split_ifs at writing
  · exact (other writing).elim
  · exact announced.writing csock writing

/-- Nobody writes a GOODBYE but who did before or decides now, and none is recorded but by a
thread that writes it. -/
theorem Announced.step (announced : endpoint.Announced) (moved : endpoint.step event = some after) :
    after.Announced := by
  have old : ∀ record ∈ endpoint.history, record.isGoodbye = true → after.Decided :=
    fun record member goodbye => (announced.written ⟨record, member, goodbye⟩).step moved
  cases step_move moved with
  | outgoing records stepped entered recorded =>
      refine ⟨fun csock writing => (announced.writing csock writing).step moved, fun written => ?_⟩
      obtain ⟨record, member, goodbye⟩ := written
      rcases List.mem_append.mp member with new | before
      · obtain ⟨⟨id, rfl⟩, -⟩ := recorded record new
        cases goodbye
      · exact old record before goodbye
  | raise raises =>
      refine ⟨fun csock writing => ?_, fun written => ?_⟩
      · rw [raises.tasks] at writing
        exact (announced.writing csock writing).step moved
      · rw [raises.history] at written
        exact (announced.written written).step moved
  | @decide csock looping shutting nothing unsent unsending =>
      exact ⟨fun _ _ => ⟨_, List.mem_cons_self, rfl⟩, fun _ => ⟨_, List.mem_cons_self, rfl⟩⟩
  | goodbyeWritten writing =>
      refine ⟨fun csock still => ?_, fun _ => (announced.writing _ writing).step moved⟩
      exact (announced.away .looping nofun still).step moved
  | goodbyeFailed writing =>
      refine ⟨fun csock still => ?_, fun written => (announced.written written).step moved⟩
      exact (announced.writing _ writing).step moved
  | @startWrite csock message id looping pirob found =>
      refine ⟨fun other still => ?_, fun written => (announced.written written).step moved⟩
      exact (announced.away (.writing message id) nofun still).step moved
  | wrote writing stops =>
      refine ⟨fun csock still => ?_, fun written => ?_⟩
      · refine (announced.away _ ?_ still).step moved
        rcases stops with rfl | rfl <;> exact nofun
      · obtain ⟨record, member, goodbye⟩ := written
        rcases List.mem_cons.mp member with rfl | before
        · cases goodbye
        · exact old record before goodbye
  | @stop _ csock task raised raises away stops =>
      refine ⟨fun other still => ?_, fun written => ?_⟩
      · have same : (endpoint.setTask csock task).tasks other = .goodbye := by
          rw [setTask_tasks, ← raises.tasks, ← setTask_tasks]
          exact still
        refine (announced.away task ?_ same).step moved
        rcases stops with rfl | ⟨fatal, rfl⟩ <;> exact nofun
      · exact (announced.written (raises.history ▸ written)).step moved

/-- An endpoint that has written its GOODBYE is shutting down with nothing pending. -/
theorem drained_of_goodbye (reached : (machine.restrict TurnsAway).Reachable endpoint)
    (written : 0 < endpoint.goodbyes) : endpoint.Drained := by
  have announced : endpoint.Announced := by
    apply reached.induct
    · intro first start
      rw [show first = Endpoint.empty from start]
      refine ⟨fun _ writing => ?_, fun written => ?_⟩
      · cases writing
      · obtain ⟨record, member, -⟩ := written
        cases member
    · intro before next event _ announced _ moved
      exact announced.step moved
  exact drained_of_reachable reached (announced.written (List.countP_pos_iff.mp written))

end Endpoint

namespace Handshake

/-- Nothing has happened yet. -/
def empty : Handshake := ⟨fun _ => .empty, fun _ => 0, fun _ => false⟩

def setSide (handshake : Handshake) (side : Bool) (endpoint : Endpoint) : Handshake :=
  { handshake with side := Function.update handshake.side side endpoint }

/-- `CSocketReceiver::do_goodbye`, the test of `is_shutting_down` and the branch of the
FIN/ACK. In the other branch `goodbye` takes the lock later. -/
def doGoodbye (handshake : Handshake) (side : Bool) : Option Handshake :=
  let received := { handshake with
    handled := Function.update handshake.handled side (handshake.handled side + 1) }
  if (handshake.side side).shuttingDown then
    (handshake.side side).goodbyeAcked.map fun next => received.setSide side next
  else some { received with following := Function.update handshake.following side true }

/-- `CSocketReceiver::do_goodbye`, the branch of the FIN. -/
def follow (handshake : Handshake) (side : Bool) (picked : List IrobId) (csocket : Bool) :
    Option Handshake :=
  ((handshake.side side).goodbye true picked csocket).map fun next =>
    { handshake.setSide side next with following := Function.update handshake.following side false }

/-- One event. -/
def step (handshake : Handshake) : HandshakeEvent → Option Handshake
  | .endpoint side event =>
      ((handshake.side side).step event).map fun next => handshake.setSide side next
  | .doGoodbye side => handshake.doGoodbye side
  | .follow side picked csocket => handshake.follow side picked csocket

/-- A GOODBYE is received only after it was written, and once; it may be lost. Whatever else
the peer sends may arrive at any time. -/
def machine : Machine Handshake HandshakeEvent where
  initial handshake := handshake = empty
  permitted handshake event := match event with
    | .endpoint side event =>
        Endpoint.machine.permitted (handshake.side side) event ∧ event.isOwn = true
    | .doGoodbye side => handshake.handled side < (handshake.side !side).goodbyes
    | .follow side _ _ => handshake.following side = true
  step := step

instance : ∀ handshake event, Decidable (machine.permitted handshake event)
  | handshake, .endpoint side event => inferInstanceAs (Decidable
      (Endpoint.machine.permitted (handshake.side side) event ∧ event.isOwn = true))
  | handshake, .doGoodbye side => inferInstanceAs (Decidable
      (handshake.handled side < (handshake.side !side).goodbyes))
  | handshake, .follow side _ _ => inferInstanceAs (Decidable (handshake.following side = true))

/-- An endpoint starts to shut down on its own while its peer is shutting down. -/
def closesLate (handshake : Handshake) : HandshakeEvent → Bool
  | .endpoint side own => own.closes && !(handshake.side side).shuttingDown &&
      (handshake.side !side).shuttingDown
  | _ => false

def insertsLate (handshake : Handshake) : HandshakeEvent → Bool
  | .endpoint side own => (handshake.side side).insertsLate own
  | _ => false

/-- The endpoints do not close at the same time, and the application is turned away. -/
def Separate (handshake : Handshake) (event : HandshakeEvent) : Prop :=
  handshake.closesLate event = false ∧ handshake.insertsLate event = false

instance (handshake : Handshake) (event : HandshakeEvent) : Decidable (handshake.Separate event) :=
  inferInstanceAs (Decidable (_ ∧ _))

variable {handshake after : Handshake} {event : HandshakeEvent}

theorem setSide_self (handshake : Handshake) (side : Bool) (endpoint : Endpoint) :
    (handshake.setSide side endpoint).side side = endpoint := by
  simp only [setSide, Function.update_self]

theorem setSide_of_ne {side query : Bool} (other : query ≠ side) (endpoint : Endpoint) :
    (handshake.setSide side endpoint).side query = handshake.side query := by
  simp only [setSide, Function.update_of_ne other]

/-- At each side nothing happens, or an event of this endpoint. -/
theorem side_cases (permitted : machine.permitted handshake event)
    (moved : handshake.step event = some after) (query : Bool) :
    after.side query = handshake.side query ∨ ∃ own,
      (handshake.side query).step own = some (after.side query) ∧
      Endpoint.machine.permitted (handshake.side query) own ∧
      (event = .endpoint query own ∨ (handshake.side query).insertsLate own = false) := by
  cases event with
  | endpoint side own =>
      obtain ⟨next, stepped, rfl⟩ := Option.map_eq_some_iff.mp moved
      by_cases same : query = side
      · subst same
        refine .inr ⟨own, ?_, permitted.1, .inl rfl⟩
        exact stepped.trans (congrArg some (setSide_self handshake query next).symm)
      · exact .inl (setSide_of_ne same next)
  | doGoodbye side =>
      simp only [step, doGoodbye] at moved
      split_ifs at moved
      · obtain ⟨next, acked, rfl⟩ := Option.map_eq_some_iff.mp moved
        by_cases same : query = side
        · subst same
          refine .inr ⟨.goodbyeAcked, ?_, trivial, .inr rfl⟩
          exact acked.trans (congrArg some (setSide_self handshake query next).symm)
        · exact .inl (setSide_of_ne same next)
      · cases moved
        exact .inl rfl
  | follow side picked csocket =>
      obtain ⟨next, followed, rfl⟩ := Option.map_eq_some_iff.mp moved
      by_cases same : query = side
      · subst same
        refine .inr ⟨.goodbye true picked csocket, ?_, trivial, .inr rfl⟩
        exact followed.trans (congrArg some (setSide_self handshake query next).symm)
      · exact .inl (setSide_of_ne same next)

/-- So each side is an endpoint that turns the application away. -/
theorem side_reachable (reached : (machine.restrict Separate).Reachable handshake) (query : Bool) :
    (Endpoint.machine.restrict Endpoint.TurnsAway).Reachable (handshake.side query) := by
  apply reached.induct
  · intro first start
    rw [show first = Handshake.empty from start]
    exact .initial rfl
  · intro before next event _ sofar permitted moved
    rcases side_cases permitted.1 moved query with same | ⟨own, stepped, allowed, origin⟩
    · rw [same]
      exact sofar
    · refine sofar.step ⟨allowed, ?_⟩ stepped
      rcases origin with rfl | other
      · exact permitted.2.2
      · exact other

theorem goodbyes_le (permitted : machine.permitted handshake event)
    (moved : handshake.step event = some after) (query : Bool) :
    (handshake.side query).goodbyes ≤ (after.side query).goodbyes := by
  rcases side_cases permitted moved query with same | ⟨own, stepped, -, -⟩
  · rw [same]
  · exact Endpoint.goodbyes_le stepped

/-- Every GOODBYE handled was written, and where both sides are shutting down one of them
follows the other. -/
structure Agreed (handshake : Handshake) : Prop where
  handled : ∀ side, handshake.handled side ≤ (handshake.side !side).goodbyes
  following : ∀ side, handshake.following side = true → 0 < handshake.handled side
  follows : (∀ side, (handshake.side side).shuttingDown = true) → ∃ side, 0 < handshake.handled side

namespace Agreed

theorem empty : Agreed .empty := by
  refine ⟨fun _ => Nat.zero_le _, fun _ following => ?_, fun shutting => ?_⟩
  · cases following
  · cases shutting true

/-- What happens at one side alone. -/
theorem endpoint {side : Bool} {own : EndpointEvent} {next : Endpoint} (agreed : handshake.Agreed)
    (separate : handshake.Separate (.endpoint side own))
    (stepped : (handshake.side side).step own = some next) :
    (handshake.setSide side next).Agreed := by
  refine ⟨fun query => ?_, agreed.following, fun shutting => ?_⟩
  · refine (agreed.handled query).trans ?_
    by_cases same : (!query) = side
    · rw [same, setSide_self]
      exact Endpoint.goodbyes_le stepped
    · rw [setSide_of_ne same]
  · have shut : next.shuttingDown = true := by
      have now := shutting side
      rwa [setSide_self] at now
    have peer : (handshake.side !side).shuttingDown = true := by
      have now := shutting !side
      rwa [setSide_of_ne (Bool.not_ne_self side)] at now
    apply agreed.follows
    intro query
    rcases Bool.eq_or_eq_not query side with rfl | rfl
    · by_contra opened
      have closes := Endpoint.closes_of_shut stepped (Bool.eq_false_iff.mpr opened) shut
      have apart := separate.1
      rw [closesLate, closes, Bool.eq_false_iff.mpr opened, peer] at apart
      cases apart
    · exact peer

theorem step (agreed : handshake.Agreed) (permitted : machine.permitted handshake event)
    (separate : handshake.Separate event) (moved : handshake.step event = some after) :
    after.Agreed := by
  have written := goodbyes_le permitted moved
  cases event with
  | endpoint side own =>
      obtain ⟨next, stepped, rfl⟩ := Option.map_eq_some_iff.mp moved
      exact agreed.endpoint separate stepped
  | doGoodbye side =>
      have arrived : handshake.handled side < (handshake.side !side).goodbyes := permitted
      have counted : after.handled =
          Function.update handshake.handled side (handshake.handled side + 1) := by
        simp only [Handshake.step, Handshake.doGoodbye] at moved
        split_ifs at moved
        · obtain ⟨next, -, rfl⟩ := Option.map_eq_some_iff.mp moved
          rfl
        · cases moved
          rfl
      have mine : 0 < after.handled side := by
        rw [counted, Function.update_self]
        exact Nat.succ_pos _
      refine ⟨fun query => ?_, fun query following => ?_, fun _ => ⟨side, mine⟩⟩
      · by_cases same : query = side
        · subst same
          rw [counted, Function.update_self]
          exact Nat.le_trans arrived (written !query)
        · rw [counted, Function.update_of_ne same]
          exact (agreed.handled query).trans (written !query)
      · by_cases same : query = side
        · exact same ▸ mine
        · have before : handshake.following query = true := by
            simp only [Handshake.step, Handshake.doGoodbye] at moved
            split_ifs at moved
            · obtain ⟨next, -, rfl⟩ := Option.map_eq_some_iff.mp moved
              exact following
            · cases moved
              exact (Function.update_of_ne same true handshake.following).symm.trans following
          rw [counted, Function.update_of_ne same]
          exact agreed.following query before
  | follow side picked csocket =>
      obtain ⟨next, followed, rfl⟩ := Option.map_eq_some_iff.mp moved
      refine ⟨fun query => (agreed.handled query).trans (written !query), fun query following => ?_,
        fun _ => ⟨side, agreed.following side permitted⟩⟩
      by_cases same : query = side
      · exact same ▸ agreed.following side permitted
      · have before : handshake.following query = true :=
          (Function.update_of_ne same false handshake.following).symm.trans following
        exact agreed.following query before

end Agreed

/-- Shutdown handshake agreement: in every run in which no endpoint starts to shut down on its
own while its peer is shutting down, and the application is turned away in time, an
endpoint that takes a received GOODBYE for the FIN/ACK has sent its own GOODBYE and has no
IROB pending. -/
theorem fin_ack_after_goodbye (reached : (machine.restrict Separate).Reachable handshake)
    {side : Bool} (arrived : machine.permitted handshake (.doGoodbye side))
    (shutting : (handshake.side side).shuttingDown = true) :
    (∃ record ∈ (handshake.side side).history, record.isGoodbye = true) ∧
      (handshake.side side).outgoing.irobs.isEmpty = true := by
  have agreed : handshake.Agreed := by
    apply reached.induct
    · intro first start
      rw [show first = Handshake.empty from start]
      exact .empty
    · intro before next event _ agreed permitted moved
      exact agreed.step permitted.1 permitted.2 moved
  have waiting : handshake.handled side < (handshake.side !side).goodbyes := arrived
  have peer := Endpoint.drained_of_goodbye (side_reachable reached !side) (by omega)
  have once : (handshake.side !side).goodbyes ≤ 1 :=
    (Endpoint.oneGoodbye_of_reachable (side_reachable reached !side).of_restrict).once
  have both : ∀ query, (handshake.side query).shuttingDown = true := by
    intro query
    rcases Bool.eq_or_eq_not query side with rfl | rfl
    · exact shutting
    · exact peer.shutting
  -- the peer follows: this side has handled nothing yet
  have written : 0 < (handshake.side side).goodbyes := by
    obtain ⟨follower, handled⟩ := agreed.follows both
    rcases Bool.eq_or_eq_not follower side with rfl | rfl
    · omega
    · have sent := agreed.handled !side
      rw [Bool.not_not] at sent
      omega
  exact ⟨List.countP_pos_iff.mp written,
    (Endpoint.drained_of_goodbye (side_reachable reached side) written).nothing⟩

/-- One side closes, the other one follows. -/
def closingEvents : List HandshakeEvent :=
  [.endpoint false (.goodbye false [] true), .endpoint false (.shutdownTest 0),
    .endpoint false (.goodbyeDone 0 .full), .doGoodbye true, .follow true [] true,
    .endpoint true (.shutdownTest 0), .endpoint true (.goodbyeDone 0 .full)]

theorem fin_ack_after_goodbye_answered : ∃ handshake,
    (machine.restrict Separate).Reachable handshake ∧
      machine.permitted handshake (.doGoodbye false) ∧
      (handshake.side false).shuttingDown = true ∧
      (handshake.side false).outgoing.irobs.isEmpty = true := by
  have ran : ∃ handshake, (machine.restrict Separate).run empty closingEvents = some handshake ∧
      machine.permitted handshake (.doGoodbye false) ∧
      (handshake.side false).shuttingDown = true := ⟨_, rfl, by decide, rfl⟩
  obtain ⟨handshake, ran, arrived, shutting⟩ := ran
  have start : (machine.restrict Separate).initial empty := rfl
  have reached := Machine.Reachable.run (.initial start) ran
  exact ⟨handshake, reached, arrived, shutting, (fin_ack_after_goodbye reached arrived shutting).2⟩

/-- Both sides close at the same time, and one of them still has an IROB to send. -/
def concurrentEvents : List HandshakeEvent :=
  [.endpoint true (.outgoing (.call (.defaultIrob 0 [65] 0 false))),
    .endpoint true (.outgoing (.proceed (.defaultIrob 0 [65] 0 false))),
    .endpoint true (.goodbye false [] true), .endpoint false (.goodbye false [] true),
    .endpoint false (.shutdownTest 0), .endpoint false (.goodbyeDone 0 .full)]

theorem fin_taken_for_fin_ack : ∃ handshake, machine.Reachable handshake ∧
    machine.permitted handshake (.doGoodbye true) ∧
    (handshake.side true).shuttingDown = true ∧ (handshake.side true).history = [.inserted 0] ∧
    (handshake.side true).outgoing.irobs.isEmpty = false ∧
    (handshake.side true).outgoing.acknowledged = [] := by
  have ran : ∃ handshake, machine.run empty concurrentEvents = some handshake ∧
      machine.permitted handshake (.doGoodbye true) ∧
      (handshake.side true).shuttingDown = true ∧ (handshake.side true).history = [.inserted 0] ∧
      (handshake.side true).outgoing.irobs.isEmpty = false ∧
      (handshake.side true).outgoing.acknowledged = [] :=
    ⟨_, rfl, by decide, rfl, rfl, rfl, rfl⟩
  obtain ⟨handshake, ran, arrived⟩ := ran
  exact ⟨handshake, Machine.Reachable.run (.initial rfl) ran, arrived⟩

end Handshake

end Libcmm
